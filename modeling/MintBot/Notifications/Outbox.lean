import Mathlib.Algebra.Group.Int.Defs
import MintBot.Library.Fallible
import MintBot.Library.Table
import MintBot.Types

/-!
# The outbox of notifications

What is to be told the owner waits in an outbox, a row for each event.  A row is leased for one
attempt, delivered, or put back with a time before which it is not tried again.  The rows of the
database do not say that a row is under way: only its lease does.
-/

namespace MintBot.Notifications

open Fallible

inductive AlertPriority
  | immediate
  | grouped
  deriving DecidableEq, Repr

/-- The data of an event, as far as the notifications read it. -/
structure EventData where
  dedupe : Option String := none
  reason : Option String := none
  occurrence : Option String := none
  text : Option String := none
  priority : Option AlertPriority := none
  includes : List String := []
  sourceEventId : Option String := none
  deriving DecidableEq, Repr

/-- An event of the backend, with its time where the text of it is a date. -/
structure EventRecord where
  id : String
  runId : Option String := none
  type : String
  at_ : Option Time
  data : EventData := {}
  deriving DecidableEq, Repr

inductive OutboxState
  | pending
  | delivering
  | delivered
  | failed
  deriving DecidableEq, Repr

structure NotificationOutboxRecord where
  id : String
  sourceEventId : String
  runId : Option String
  type : String
  text : String
  state : OutboxState
  attempts : Nat
  createdAt : Time
  deliveredAt : Option Time
  retentionUntil : Option Time
  deliveryLeaseUntil : Option Time
  nextAttemptAt : Option Time
  lastError : Option String
  canonicalLink : Option String
  deriving DecidableEq, Repr

/-- The texts of a message, made from its event. -/
structure MessageWording where
  /-- The text that is supplied or the type of the event, redacted and cut. -/
  sourceText : EventRecord → Option String → String
  canonicalRunLink : Option String → Option String

structure DispatcherOptions where
  retentionDays : Int
  retryBaseMs : Int
  retryMaxMs : Int
  leaseMs : Int
  minIntervalMs : Int
  deriving DecidableEq, Repr

/-- An empty text counts as no text. -/
def truthy (text : Option String) : Option String :=
  text.filter (· ≠ "")

/-- An instant is given and has not come. -/
def Ahead (instant : Option Time) (now : Time) : Prop :=
  ∃ later ∈ instant, now < later

instance (instant : Option Time) (now : Time) : Decidable (Ahead instant now) :=
  match instant with
  | none => .isFalse (by rintro ⟨_, member, _⟩; cases member)
  | some later => decidable_of_iff (now < later) (by simp [Ahead])

/-! ## The state -/

variable (wording : MessageWording)

/-- The row of an event that has none yet. -/
def newRecord (source : EventRecord) (text : Option String) (now : Time) (retentionDays : Int) :
    NotificationOutboxRecord :=
  let createdAt := (source.at_.filter (· ≤ now)).getD now
  { id := "notify_" ++ source.id
    sourceEventId := source.id
    runId := truthy source.runId
    type := source.type
    text := wording.sourceText source text
    state := .pending
    attempts := 0
    createdAt := createdAt
    deliveredAt := none
    retentionUntil := some (createdAt + retentionDays * 86400000)
    deliveryLeaseUntil := none
    nextAttemptAt := none
    lastError := none
    canonicalLink := wording.canonicalRunLink source.runId }

/-- The row of an event and the outbox with it. -/
def enqueueNotification (outbox : List NotificationOutboxRecord) (source : EventRecord)
    (text : Option String) (now : Time) (retentionDays : Int) :
    NotificationOutboxRecord × List NotificationOutboxRecord :=
  match Table.lookup NotificationOutboxRecord.sourceEventId source.id outbox with
  | some existing => (existing, outbox)
  | none =>
      let item := newRecord wording source text now retentionDays
      (item, outbox ++ [item])

/-- The message of the provider's refusal for too many requests. -/
def rateLimited : String :=
  "TELEGRAM_DELIVERY_FAILED:429"

/-- How long a refusal that is kept in a row holds up the whole channel. -/
def sharedBackoff (outbox : List NotificationOutboxRecord) (now : Time) : Time :=
  outbox.foldl (fun until_ item =>
    if item.lastError = some rateLimited ∧ item.state ≠ .delivered ∧ Ahead item.nextAttemptAt now
    then max until_ (item.nextAttemptAt.getD 0) else until_) 0

/-- The row that is put off, while the channel is held up. -/
def deferred (item : NotificationOutboxRecord) (until_ now : Time) : NotificationOutboxRecord :=
  if item.state ≠ .delivered ∧ ¬ Ahead item.deliveryLeaseUntil now then
    { item with nextAttemptAt := some (max until_ (item.nextAttemptAt.getD 0)) }
  else item

/-- Rewrite the row of an item. -/
def rewrite (item : NotificationOutboxRecord) (outbox : List NotificationOutboxRecord)
    (change : NotificationOutboxRecord → NotificationOutboxRecord) :
    List NotificationOutboxRecord :=
  Table.update NotificationOutboxRecord.id item.id change outbox

/-- Whether the channel is held up, and the outbox in which the item is then put off. -/
def deferForProvider (outbox : List NotificationOutboxRecord) (item : NotificationOutboxRecord)
    (now : Time) : Bool × List NotificationOutboxRecord :=
  let until_ := sharedBackoff outbox now
  if until_ ≤ now then (false, outbox)
  else (true, rewrite item outbox fun item => deferred item until_ now)

/-! ## The transactions of a dispatch -/

def findSource (events : List EventRecord) (sourceEventId : String) : Except Error EventRecord :=
  require (Table.lookup EventRecord.id sourceEventId events) "NOTIFICATION_SOURCE_EVENT_NOT_FOUND"

/-- Pending work is stored before anything is sent; whether it may be sent now. -/
def queueing (options : DispatcherOptions) (events : List EventRecord) (sourceEventId : String)
    (text : Option String) (now : Time) (outbox : List NotificationOutboxRecord) :
    Except Error (Bool × List NotificationOutboxRecord) := do
  let source ← findSource events sourceEventId
  let (queued, outbox) := enqueueNotification wording outbox source text now options.retentionDays
  if queued.state = .delivered then return (false, outbox)
  let (held, outbox) := deferForProvider outbox queued now
  return (!held, outbox)

/-- The row as it is leased for an attempt. -/
def leased (options : DispatcherOptions) (now : Time) (item : NotificationOutboxRecord) :
    NotificationOutboxRecord :=
  { item with
    state := .delivering
    attempts := item.attempts + 1
    lastError := none
    nextAttemptAt := none
    deliveryLeaseUntil := some (now + options.leaseMs) }

/-- The lease of a row, or none where it was delivered, is put off or is leased. -/
def leasing (options : DispatcherOptions) (events : List EventRecord) (sourceEventId : String)
    (text : Option String) (now : Time) (outbox : List NotificationOutboxRecord) :
    Except Error (Option NotificationOutboxRecord × List NotificationOutboxRecord) := do
  let source ← findSource events sourceEventId
  let (item, outbox) := enqueueNotification wording outbox source text now options.retentionDays
  if item.state = .delivered then return (none, outbox)
  let (held, outbox) := deferForProvider outbox item now
  if held then return (none, outbox)
  if Ahead item.nextAttemptAt now then return (none, outbox)
  if Ahead item.deliveryLeaseUntil now then return (none, outbox)
  return (some (leased options now item), rewrite item outbox (leased options now))

def deliveredRecord (now : Time) (item : NotificationOutboxRecord) : NotificationOutboxRecord :=
  { item with
    state := .delivered
    deliveredAt := some now
    lastError := none
    deliveryLeaseUntil := none
    nextAttemptAt := none }

/-- The event that records a delivery. -/
def deliveredEvent (uuid : String) (now : Time) (item : NotificationOutboxRecord) :
    EventRecord where
  id := "evt_" ++ uuid
  runId := item.runId
  type := "notification_delivered"
  at_ := some now
  data := { sourceEventId := some item.sourceEventId }

def delivering (item : NotificationOutboxRecord) (uuid : String) (now : Time)
    (events : List EventRecord) (outbox : List NotificationOutboxRecord) :
    Except Error (List EventRecord × List NotificationOutboxRecord) := do
  let found ← require (Table.lookup NotificationOutboxRecord.id item.id outbox)
    "NOTIFICATION_OUTBOX_NOT_FOUND"
  return (events ++ [deliveredEvent uuid now found], rewrite item outbox (deliveredRecord now))

/-- An error of the sink, its message redacted and cut, and the delay that a refusal for too many
requests asks for. -/
structure SendError where
  message : String
  retryAfterMs : Option Int := none
  deriving DecidableEq, Repr

/-- How long a row waits after an attempt. -/
def backoff (options : DispatcherOptions) (error : SendError) (attempts : Nat) : Int :=
  max (min options.retryMaxMs (options.retryBaseMs * max 1 (2 ^ min 8 attempts)))
    ((error.retryAfterMs.filter (0 < ·)).getD 0)

def failedRecord (options : DispatcherOptions) (error : SendError) (now : Time)
    (item : NotificationOutboxRecord) : NotificationOutboxRecord :=
  { item with
    state := .failed
    deliveryLeaseUntil := none
    lastError := some error.message
    nextAttemptAt := some (now + backoff options error item.attempts) }

/-- A failed attempt is put back, unless another one was recorded meanwhile. -/
def failing (options : DispatcherOptions) (item : NotificationOutboxRecord) (error : SendError)
    (now : Time) (outbox : List NotificationOutboxRecord) : List NotificationOutboxRecord :=
  match Table.lookup NotificationOutboxRecord.id item.id outbox with
  | none => outbox
  | some found =>
      if found.state = .delivering ∨ found.state = .pending then
        rewrite item outbox (failedRecord options error now)
      else outbox

/-- Delivered rows are dropped after the time they are kept. -/
def pruned (now : Time) (retentionDays : Int) (outbox : List NotificationOutboxRecord) :
    List NotificationOutboxRecord :=
  outbox.filter fun item =>
    item.state ≠ .delivered ∨ now - retentionDays * 86400000 ≤ item.deliveredAt.getD item.createdAt

/-! ## The rows of the database -/

inductive DeliveryState
  | pending
  | queued
  | sent
  | delivered
  | failed
  | deadLetter
  deriving DecidableEq, Repr

/-- The trigger `notification_delivery_transition_guard`. -/
def DeliveryState.Allows : DeliveryState → DeliveryState → Prop
  | .pending, next => next = .pending ∨ next = .sent ∨ next = .failed
  | .queued, next => next = .queued ∨ next = .sent ∨ next = .failed
  | .sent, next => next = .sent ∨ next = .delivered ∨ next = .failed
  | .failed, next => next = .failed ∨ next = .queued ∨ next = .deadLetter
  | .delivered, next => next = .delivered
  | .deadLetter, next => next = .deadLetter

instance (state next : DeliveryState) : Decidable (state.Allows next) :=
  match state with
  | .pending | .queued | .sent | .failed => inferInstanceAs (Decidable (_ ∨ _ ∨ _))
  | .delivered | .deadLetter => inferInstanceAs (Decidable (_ = _))

/-- The columns that only the payload holds. -/
structure Payload where
  sourceEventId : String
  runId : Option String
  type : String
  text : String
  attempts : Nat
  retentionUntil : Option Time
  deliveryLeaseUntil : Option Time
  nextAttemptAt : Option Time
  canonicalLink : Option String
  lastError : Option String
  deriving DecidableEq, Repr

structure NotificationRow where
  id : String
  eventKey : String
  deliveryState : DeliveryState
  payload : Payload
  createdAt : Time
  deliveredAt : Option Time
  deriving DecidableEq, Repr

def payloadOf (record : NotificationOutboxRecord) : Payload where
  sourceEventId := record.sourceEventId
  runId := truthy record.runId
  type := record.type
  text := record.text
  attempts := record.attempts
  retentionUntil := record.retentionUntil
  deliveryLeaseUntil := record.deliveryLeaseUntil
  nextAttemptAt := record.nextAttemptAt
  canonicalLink := truthy record.canonicalLink
  lastError := truthy record.lastError

def readNotification (row : NotificationRow) : NotificationOutboxRecord where
  id := row.id
  sourceEventId := row.payload.sourceEventId
  runId := truthy row.payload.runId
  type := row.payload.type
  text := row.payload.text
  state :=
    if row.deliveryState = .delivered ∨ row.deliveryState = .sent then .delivered
    else if row.deliveryState = .failed ∨ (truthy row.payload.lastError).isSome then .failed
    else .pending
  attempts := row.payload.attempts
  createdAt := row.createdAt
  deliveredAt := row.deliveredAt
  retentionUntil := row.payload.retentionUntil
  deliveryLeaseUntil := row.payload.deliveryLeaseUntil
  nextAttemptAt := row.payload.nextAttemptAt
  lastError := truthy row.payload.lastError
  canonicalLink := truthy row.payload.canonicalLink

def readNotifications (rows : List NotificationRow) : List NotificationOutboxRecord :=
  rows.map readNotification

/-- An update of the state of a row, under its trigger. -/
def NotificationRow.move (row : NotificationRow) (state : DeliveryState) (payload : Payload)
    (deliveredAt : Option Time) : Except Error NotificationRow := do
  refuse (¬ row.deliveryState.Allows state) "invalid notification delivery transition"
  return { row with deliveryState := state, payload := payload, deliveredAt := deliveredAt }

/-- The updates of a row that becomes delivered. -/
def NotificationRow.deliver (row : NotificationRow) (payload : Payload)
    (deliveredAt : Option Time) : Except Error NotificationRow := do
  let sent ←
    if row.deliveryState = .pending ∨ row.deliveryState = .queued then
      row.move .sent payload row.deliveredAt
    else pure row
  if row.deliveryState ≠ .delivered then sent.move .delivered payload deliveredAt else pure sent

/-- The row of a record that is new. -/
def insertNotification (record : NotificationOutboxRecord) : Except Error NotificationRow :=
  let row : NotificationRow :=
    { id := record.id
      eventKey := record.sourceEventId
      deliveryState := .pending
      payload := payloadOf record
      createdAt := record.createdAt
      deliveredAt := none }
  match record.state with
  | .failed => row.move .failed row.payload row.deliveredAt
  | .delivered => row.deliver row.payload record.deliveredAt
  | .pending | .delivering => pure row

/-- The row of a record that changed. -/
def updateNotification (record : NotificationOutboxRecord) (row : NotificationRow) :
    Except Error NotificationRow :=
  let payload := payloadOf record
  match record.state with
  | .delivered => row.deliver payload record.deliveredAt
  | .failed =>
      if row.deliveryState ≠ .failed then row.move .failed payload none
      else pure { row with payload := payload }
  | .delivering =>
      if row.deliveryState = .failed then row.move .queued payload none
      else pure { row with payload := payload }
  | .pending => pure { row with payload := payload }

/-- The fields by which a record is taken to have changed. -/
def SameDelivery (prior record : NotificationOutboxRecord) : Prop :=
  prior.state = record.state ∧ prior.attempts = record.attempts ∧
    prior.deliveredAt = record.deliveredAt ∧ prior.retentionUntil = record.retentionUntil ∧
    prior.deliveryLeaseUntil = record.deliveryLeaseUntil ∧
    prior.nextAttemptAt = record.nextAttemptAt ∧ prior.lastError = record.lastError

instance (prior record : NotificationOutboxRecord) : Decidable (SameDelivery prior record) :=
  inferInstanceAs (Decidable (_ ∧ _ ∧ _ ∧ _ ∧ _ ∧ _ ∧ _))

def persistNotification (record : NotificationOutboxRecord)
    (prior : Option NotificationOutboxRecord) (rows : List NotificationRow) :
    Except Error (List NotificationRow) :=
  match prior with
  | none => do
      refuse ((Table.lookup NotificationRow.id record.id rows).isSome)
        "UNIQUE constraint failed: notification.id"
      let row ← insertNotification record
      return rows ++ [row]
  | some prior =>
      if SameDelivery prior record then pure rows
      else do
        let current ← require (Table.lookup NotificationRow.id record.id rows)
          "NOTIFICATION_OUTBOX_NOT_FOUND"
        let row ← updateNotification record current
        return Table.update NotificationRow.id record.id (fun _ => row) rows

/-- What a transaction does to the rows when it ends with `next`. -/
def persistOutbox (next : List NotificationOutboxRecord) (rows : List NotificationRow) :
    Except Error (List NotificationRow) := do
  let previous := readNotifications rows
  let written ← next.foldlM (fun rows record =>
    persistNotification record (Table.lookup NotificationOutboxRecord.id record.id previous) rows)
    rows
  return written.filter fun row =>
    ¬ (row.id ∈ previous.map NotificationOutboxRecord.id ∧
      row.id ∉ next.map NotificationOutboxRecord.id)

end MintBot.Notifications
