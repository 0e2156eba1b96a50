import Mathlib.Logic.Function.Basic
import MintBot.Library.Machine
import MintBot.Notifications.Outbox

/-!
# The dispatchers of one store

Any number of dispatchers deliver from one database.  A dispatch is a call of one of them: it
queues its event, waits for its turn, leases the row, hands the message to the sink and records
what came of it, and between these steps every other call may take its own.
-/

namespace MintBot.Notifications

open Fallible Machine

/-- What a call does next. -/
inductive CallStage
  | queueing
  /-- It waits for its turn and leases the row then. -/
  | pacing (slot : Time)
  /-- The sink has the message. -/
  | sending (item : NotificationOutboxRecord)
  /-- The sink took the message, which is recorded. -/
  | delivering (item : NotificationOutboxRecord)
  /-- The attempt failed, which is recorded. -/
  | failing (item : NotificationOutboxRecord) (error : SendError)
  deriving DecidableEq

/-- A call of `dispatch` on a dispatcher. -/
structure DispatchCall where
  dispatcher : Nat
  sourceEventId : String
  text : Option String
  stage : CallStage
  deriving DecidableEq

/-- The fields of a dispatcher that change. -/
structure Dispatcher where
  active : List String := []
  nextDeliveryAt : Time := 0

structure World where
  clock : Time
  events : List EventRecord
  rows : List NotificationRow
  dispatchers : Nat → Dispatcher
  calls : Nat → Option DispatchCall
  /-- The events whose message the sink took, and those whose delivered row was dropped, in
  order.  No branch reads these. -/
  accepted : List String
  dropped : List String

inductive Command
  | wait (milliseconds : Nat)
  /-- An event is stored. -/
  | store (event : EventRecord)
  /-- An event is stored with its row. -/
  | publish (event : EventRecord) (text : Option String) (retentionDays : Int)
  /-- A stored event is given the row it lacks. -/
  | requeue (sourceEventId : String) (text : Option String) (retentionDays : Int)
  | dispatch (call dispatcher : Nat) (sourceEventId : String) (text : Option String)
  /-- The transaction that stores the pending row. -/
  | queue (call : Nat)
  /-- The transaction that leases it. -/
  | lease (call : Nat)
  /-- The sink answers. -/
  | answer (call : Nat) (failure : Option SendError)
  /-- The transaction that records the answer. -/
  | record (call : Nat) (uuid : String)
  /-- The transaction that a call waits for fails with an error of the database. -/
  | refuse (call : Nat) (error : Error)
  /-- The process of a dispatcher ends and is started again. -/
  | crash (dispatcher : Nat)
  | prune (retentionDays : Int)
  deriving DecidableEq

namespace World

def outbox (world : World) : List NotificationOutboxRecord :=
  readNotifications world.rows

/-- The row of an event. -/
def row (world : World) (sourceEventId : String) : Option NotificationOutboxRecord :=
  Table.lookup NotificationOutboxRecord.sourceEventId sourceEventId world.outbox

def setDispatcher (world : World) (dispatcher : Nat) (value : Dispatcher) : World :=
  { world with dispatchers := Function.update world.dispatchers dispatcher value }

def setCall (world : World) (call : Nat) (value : Option DispatchCall) : World :=
  { world with calls := Function.update world.calls call value }

def moveCall (world : World) (call : Nat) (value : DispatchCall) (stage : CallStage) : World :=
  world.setCall call (some { value with stage := stage })

/-- A call ends, and its dispatcher takes its event again. -/
def finish (world : World) (call : Nat) (value : DispatchCall) : World :=
  let dispatcher := world.dispatchers value.dispatcher
  (world.setDispatcher value.dispatcher
    { dispatcher with active := dispatcher.active.filter (· ≠ value.sourceEventId) }).setCall
      call none

/-- The world after a transaction on the outbox. -/
def commit (world : World) (outbox : List NotificationOutboxRecord) : Except Error World := do
  let rows ← persistOutbox outbox world.rows
  return { world with rows := rows }

variable (wording : MessageWording) (options : Nat → DispatcherOptions)

def startCall (world : World) (call dispatcher : Nat) (sourceEventId : String)
    (text : Option String) : World :=
  let held := world.dispatchers dispatcher
  if sourceEventId ∈ held.active then world
  else
    (world.setDispatcher dispatcher { held with active := held.active ++ [sourceEventId] }).setCall
      call (some ⟨dispatcher, sourceEventId, text, .queueing⟩)

/-- The turn of a call, after the turns that were given before. -/
def pace (world : World) (call : Nat) (value : DispatchCall) : World :=
  let dispatcher := world.dispatchers value.dispatcher
  let interval := (options value.dispatcher).minIntervalMs
  if 0 < interval then
    let slot := max world.clock dispatcher.nextDeliveryAt
    (world.setDispatcher value.dispatcher
      { dispatcher with nextDeliveryAt := slot + interval }).moveCall call value (.pacing slot)
  else world.moveCall call value (.pacing world.clock)

/-- The transaction of a queueing call. -/
def queueCall (world : World) (call : Nat) (value : DispatchCall) : Except Error World := do
  match queueing wording (options value.dispatcher) world.events value.sourceEventId value.text
      world.clock world.outbox with
  | .error _ => return world.finish call value
  | .ok (eligible, outbox) =>
      let stored ← world.commit outbox
      return if eligible then stored.pace options call value else stored.finish call value

/-- The transaction of a call whose turn has come. -/
def leaseCall (world : World) (call : Nat) (value : DispatchCall) : Except Error World := do
  match leasing wording (options value.dispatcher) world.events value.sourceEventId value.text
      world.clock world.outbox with
  | .error _ => return world.finish call value
  | .ok (item, outbox) =>
      let stored ← world.commit outbox
      return match item with
        | some item => stored.moveCall call value (.sending item)
        | none => stored.finish call value

/-- What a call does when its attempt failed: recording it is left. -/
def failCall (world : World) (call : Nat) (value : DispatchCall) (item : NotificationOutboxRecord)
    (error : SendError) : World :=
  world.moveCall call value (.failing item error)

def answerCall (world : World) (call : Nat) (value : DispatchCall)
    (item : NotificationOutboxRecord) : Option SendError → World
  | none =>
      { world.moveCall call value (.delivering item) with
        accepted := world.accepted ++ [value.sourceEventId] }
  | some error => world.failCall call value item error

/-- The transaction that records a delivery; when it fails, the attempt counts as failed. -/
def deliverCall (world : World) (call : Nat) (value : DispatchCall)
    (item : NotificationOutboxRecord) (uuid : String) : World :=
  match delivering item uuid world.clock world.events world.outbox with
  | .error error => world.failCall call value item ⟨error, none⟩
  | .ok (events, outbox) =>
      match world.commit outbox with
      | .error error => world.failCall call value item ⟨error, none⟩
      | .ok stored => ({ stored with events := events } : World).finish call value

def failureCall (world : World) (call : Nat) (value : DispatchCall)
    (item : NotificationOutboxRecord) (error : SendError) : Except Error World := do
  let stored ← world.commit
    (failing (options value.dispatcher) item error world.clock world.outbox)
  return stored.finish call value

/-- A transaction fails with an error of the database. -/
def refuseCall (world : World) (call : Nat) (value : DispatchCall) (error : Error) :
    Except Error World :=
  match value.stage with
  | .queueing | .pacing _ | .failing _ _ => .ok (world.finish call value)
  | .delivering item => .ok (world.failCall call value item ⟨error, none⟩)
  | .sending _ => .error "NO_TRANSACTION"

def pruneRows (world : World) (retentionDays : Int) : Except Error World := do
  let next := pruned world.clock retentionDays world.outbox
  let stored ← world.commit next
  return { stored with
    dropped := world.dropped ++
      (world.outbox.filter (· ∉ next)).map NotificationOutboxRecord.sourceEventId }

def restart (world : World) (dispatcher : Nat) : World :=
  { world.setDispatcher dispatcher {} with
    calls := fun call => (world.calls call).filter (·.dispatcher ≠ dispatcher) }

end World

variable (wording : MessageWording) (options : Nat → DispatcherOptions)

def step (command : Command) (world : World) : Except Error World :=
  match command with
  | .wait milliseconds => .ok { world with clock := world.clock + milliseconds }
  | .store event => .ok { world with events := world.events ++ [event] }
  | .publish event text retentionDays =>
      ({ world with events := world.events ++ [event] } : World).commit
        (enqueueNotification wording world.outbox event text world.clock retentionDays).2
  | .requeue sourceEventId text retentionDays => do
      let source ← findSource world.events sourceEventId
      world.commit
        (enqueueNotification wording world.outbox source text world.clock retentionDays).2
  | .dispatch call dispatcher sourceEventId text => do
      refuse ((world.calls call).isSome) "CALL_IN_USE"
      return world.startCall call dispatcher sourceEventId text
  | .queue call => do
      let value ← require (world.calls call) "NO_CALL"
      refuse (value.stage ≠ .queueing) "NOT_QUEUEING"
      world.queueCall wording options call value
  | .lease call => do
      let value ← require (world.calls call) "NO_CALL"
      match value.stage with
      | .pacing slot =>
          refuse (world.clock < slot) "NOT_ITS_TURN"
          world.leaseCall wording options call value
      | _ => .error "NOT_PACING"
  | .answer call failure => do
      let value ← require (world.calls call) "NO_CALL"
      match value.stage with
      | .sending item => return world.answerCall call value item failure
      | _ => .error "NOT_SENDING"
  | .record call uuid => do
      let value ← require (world.calls call) "NO_CALL"
      match value.stage with
      | .delivering item => return world.deliverCall call value item uuid
      | .failing item error => world.failureCall options call value item error
      | _ => .error "NO_ANSWER"
  | .refuse call error => do
      let value ← require (world.calls call) "NO_CALL"
      world.refuseCall call value error
  | .crash dispatcher => .ok (world.restart dispatcher)
  | .prune retentionDays => world.pruneRows retentionDays

end MintBot.Notifications
