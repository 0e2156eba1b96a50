import MintBot.Store.Policy

/-!
# Store transactions

`transaction` runs a mutation of the backend state and writes what it changed;
a refused write fails it as a whole.  The engine's lifecycle writes, the two
abort operations, settlement and the kill switch are transactions of their own.
-/

namespace MintBot

open Fallible

/-! ## Persisting a change of the backend state -/

/-- Records whose id the previous state does not have. -/
def added {α κ : Type} [DecidableEq κ] (key : α → κ) (previous next : List α) : List α :=
  next.filter fun item => ∀ old ∈ previous, key old ≠ key item

/-- Records that are new or differ from their previous version.  Ids are
primary keys, so a record has its previous version exactly when it is in the
previous list. -/
def changed {α : Type} [DecidableEq α] (previous next : List α) : List α :=
  next.filter fun item => item ∉ previous

/-- `persistDelta`: write the differences between two backend states, table by
table.  Events and reconciliations get random ids, so the new ones are those
appended. -/
def persistDelta (fleetPolicy : Option FleetSpendPolicy) (now : Time) (db : Db)
    (previous next : BackendState) : Except Error Db := do
  let runs ← (changed previous.runs next.runs).foldlM
    (fun db run => persistRun db run (Table.lookup RunRecord.id run.id previous.runs)) db
  let intents ← (added IntentRecord.id previous.intents next.intents).foldlM
    (persistIntent fleetPolicy now) runs
  let attempts ← (added AttemptRecord.id previous.attempts next.attempts).foldlM
    persistAttempt intents
  let receipts ← (added ReceiptRecord.id previous.receipts next.receipts).foldlM
    persistReceipt attempts
  let reconciliations ← (next.reconciliations.drop previous.reconciliations.length).foldlM
    persistReconciliation receipts
  let reservations ← (changed previous.reservations next.reservations).foldlM
    (fun db reservation => persistReservation db now reservation
      (Table.lookup Reservation.id reservation.id previous.reservations)) reconciliations
  let events ← (next.events.drop previous.events.length).foldlM persistEvent reservations
  return { events with killed := events.killed || (!previous.killed && next.killed) }

/-- `transaction`. -/
def transaction (fleetPolicy : Option FleetSpendPolicy) (now : Time) (db : Db)
    (mutate : BackendState → Except Error BackendState) : Except Error Db := do
  let next ← mutate (snapshot db)
  persistDelta fleetPolicy now db (snapshot db) next

/-! ## Changes of one kind -/

theorem added_append {α κ : Type} [DecidableEq κ] (key : α → κ) {previous new : List α}
    (fresh : ∀ item ∈ new, ∀ old ∈ previous, key old ≠ key item) :
    added key previous (previous ++ new) = new := by
  unfold added
  rw [List.filter_append]
  have none : previous.filter (fun item => ∀ old ∈ previous, key old ≠ key item) = [] := by
    simp only [List.filter_eq_nil_iff, decide_eq_true_eq]
    exact fun item member differ => differ item member rfl
  have all : new.filter (fun item => ∀ old ∈ previous, key old ≠ key item) = new := by
    simp only [List.filter_eq_self, decide_eq_true_eq]
    exact fresh
  rw [none, all, List.nil_append]

@[simp]
theorem added_self {α κ : Type} [DecidableEq κ] (key : α → κ) (previous : List α) :
    added key previous previous = [] := by
  have nothing : added key previous (previous ++ []) = [] := added_append key (by simp)
  rwa [List.append_nil] at nothing

@[simp]
theorem changed_self {α : Type} [DecidableEq α] (previous : List α) :
    changed previous previous = [] := by
  simp [changed]

/-- A transaction that changes nothing writes nothing. -/
theorem persistDelta_self (fleetPolicy : Option FleetSpendPolicy) (now : Time) (db : Db)
    (previous : BackendState) : persistDelta fleetPolicy now db previous previous = .ok db := by
  simp only [persistDelta, added_self, changed_self, List.drop_length, List.foldlM_nil,
    pure_bind, Bool.not_and_self, Bool.or_false]
  rfl

/-- A transaction that adds one attempt persists that attempt. -/
theorem persistDelta_attempt (fleetPolicy : Option FleetSpendPolicy) (now : Time) (db : Db)
    {previous : BackendState} {record : AttemptRecord}
    (fresh : ∀ old ∈ previous.attempts, old.id ≠ record.id) :
    persistDelta fleetPolicy now db previous
        { previous with attempts := previous.attempts ++ [record] } =
      persistAttempt db record := by
  have new : added AttemptRecord.id previous.attempts (previous.attempts ++ [record]) =
      [record] := added_append AttemptRecord.id (by simpa using fresh)
  simp only [persistDelta, added_self, changed_self, new, List.drop_length, List.foldlM_nil,
    List.foldlM_cons, pure_bind, bind_pure]
  cases persistAttempt db record with
  | error failure => rfl
  | ok written =>
      simp only [Bool.not_and_self, Bool.or_false]
      rfl

/-- A transaction that adds one receipt persists that receipt. -/
theorem persistDelta_receipt (fleetPolicy : Option FleetSpendPolicy) (now : Time) (db : Db)
    {previous : BackendState} {record : ReceiptRecord}
    (fresh : ∀ old ∈ previous.receipts, old.id ≠ record.id) :
    persistDelta fleetPolicy now db previous
        { previous with receipts := previous.receipts ++ [record] } =
      persistReceipt db record := by
  have new : added ReceiptRecord.id previous.receipts (previous.receipts ++ [record]) =
      [record] := added_append ReceiptRecord.id (by simpa using fresh)
  simp only [persistDelta, added_self, changed_self, new, List.drop_length, List.foldlM_nil,
    List.foldlM_cons, pure_bind, bind_pure]
  cases persistReceipt db record with
  | error failure => rfl
  | ok written =>
      simp only [Bool.not_and_self, Bool.or_false]
      rfl

/-! ## Lifecycle writes of the engine -/

/-- The response class of an attempt as the engine reports it. -/
inductive ResponseClass
  | signed
  | broadcast (responseClass : BroadcastResponseClass)
  | other (text : String)
  deriving DecidableEq, Repr

/-- The stored state of a response class. -/
def ResponseClass.state : ResponseClass → ExecutionState
  | .signed => .signed
  | .broadcast .timeout | .broadcast .ambiguous => .pending
  | .broadcast .rejected | .broadcast .providerError => .failed
  | .broadcast .accepted | .broadcast .alreadyKnown | .other _ => .submitted

structure EngineAttempt where
  id : AttemptId
  executionId : ExecutionId
  transactionIntentId : IntentRowId
  responseClass : ResponseClass
  txHash : Option String
  nonce : Int
  replacementOfId : Option AttemptId
  attemptedAt : Time
  deriving DecidableEq, Repr

structure ExecutionIdentity where
  runId : RunId
  campaignId : CampaignId
  wallet : String
  transactionIntentId : IntentRowId
  chainId : ChainId
  valueWei : Wei
  deriving DecidableEq, Repr

/-- `executionIdentity`. -/
def executionIdentity (db : Db) (id : ExecutionId) : Option ExecutionIdentity := do
  let execution ← db.execution id
  let intent ← db.intent execution.transactionIntentId
  let profile ← db.profile execution.walletId.chainProfileId
  pure
    { runId := execution.runId
      campaignId := execution.campaignId
      wallet := execution.walletId.address
      transactionIntentId := execution.transactionIntentId
      chainId := profile.chainId
      valueWei := intent.valueWei }

/-- The attempt record that `persistEngineAttempt` adds. -/
def EngineAttempt.record (input : EngineAttempt) (identity : ExecutionIdentity) :
    AttemptRecord where
  id := input.id
  executionId := input.executionId
  runId := identity.runId
  wallet := identity.wallet
  nonce := some input.nonce
  hash := input.txHash.filter (· ≠ "")
  replacementOfId := input.replacementOfId
  state := input.responseClass.state
  robinhoodFinality := none
  createdAt := input.attemptedAt

/-- A stored attempt of the same id belongs to another transaction. -/
def AttemptIdentityMismatch (existing : AttemptRecord) (input : EngineAttempt)
    (identity : ExecutionIdentity) : Prop :=
  existing.executionId ≠ input.executionId ∨ existing.runId ≠ identity.runId ∨
    toLowerCase existing.wallet ≠ toLowerCase identity.wallet ∨
    existing.nonce ≠ some input.nonce ∨
    ∃ stored ∈ existing.hash, ∃ offered ∈ input.txHash, toLowerCase stored ≠ toLowerCase offered

instance (existing : AttemptRecord) (input : EngineAttempt) (identity : ExecutionIdentity) :
    Decidable (AttemptIdentityMismatch existing input identity) := by
  unfold AttemptIdentityMismatch
  infer_instance

/-- `persistEngineAttempt`. -/
def persistEngineAttempt (fleetPolicy : Option FleetSpendPolicy) (db : Db) (now : Time)
    (input : EngineAttempt) : Except Error Db := do
  let identity ← require
    ((executionIdentity db input.executionId).filter fun identity =>
      identity.transactionIntentId = input.transactionIntentId)
    "CANONICAL_ATTEMPT_IDENTITY_MISMATCH"
  transaction fleetPolicy now db fun current =>
    match current.attempts.find? fun attempt => attempt.id = input.id with
    | some existing => do
        refuse (AttemptIdentityMismatch existing input identity) "ATTEMPT_IDENTITY_MISMATCH"
        return current
    | none => return { current with attempts := current.attempts ++ [input.record identity] }

/-- A new engine attempt is persisted; a stored one is only compared. -/
theorem persistEngineAttempt_eq_ok {fleetPolicy : Option FleetSpendPolicy} {db db' : Db}
    {now : Time} {input : EngineAttempt} :
    persistEngineAttempt fleetPolicy db now input = .ok db' ↔
      ∃ identity, executionIdentity db input.executionId = some identity ∧
        identity.transactionIntentId = input.transactionIntentId ∧
        ((∃ existing ∈ db.readAttempts.find? fun attempt => attempt.id = input.id,
            ¬ AttemptIdentityMismatch existing input identity ∧ db = db') ∨
          ((∀ attempt ∈ db.readAttempts, attempt.id ≠ input.id) ∧
            persistAttempt db (input.record identity) = .ok db')) := by
  simp only [persistEngineAttempt, transaction, bind_eq_ok, require_eq_ok,
    Option.filter_eq_some_iff, decide_eq_true_eq]
  refine exists_congr fun identity => ?_
  rw [and_assoc]
  refine and_congr_right fun found => and_congr_right fun sameIntent => ?_
  cases stored : db.readAttempts.find? fun attempt => attempt.id = input.id with
  | some existing =>
      have storedId : existing.id = input.id := by simpa using List.find?_some stored
      have member := List.mem_of_find?_eq_some stored
      simp only [snapshot, stored, bind_eq_ok, refuse_eq_ok, pure_eq_ok]
      constructor
      · rintro ⟨next, ⟨⟨⟩, matching, rfl⟩, persisted⟩
        rw [persistDelta_self] at persisted
        exact Or.inl ⟨existing, rfl, matching, Except.ok.inj persisted⟩
      · rintro (⟨_, ⟨⟩, matching, rfl⟩ | ⟨fresh, -⟩)
        · exact ⟨_, ⟨⟨⟩, matching, rfl⟩, persistDelta_self fleetPolicy now db _⟩
        · exact absurd storedId (fresh existing member)
  | none =>
      have fresh : ∀ attempt ∈ db.readAttempts, attempt.id ≠ input.id := by
        simpa using stored
      simp only [snapshot, stored, pure_eq_ok]
      have delta : persistDelta fleetPolicy now db (snapshot db)
          { snapshot db with attempts := db.readAttempts ++ [input.record identity] } =
            persistAttempt db (input.record identity) :=
        persistDelta_attempt fleetPolicy now db fresh
      constructor
      · rintro ⟨next, rfl, persisted⟩
        exact Or.inr ⟨fresh, delta.symm.trans persisted⟩
      · rintro (⟨existing, impossible, -⟩ | ⟨-, persisted⟩)
        · simp at impossible
        · exact ⟨_, rfl, delta.trans persisted⟩

inductive EngineReceiptStatus
  | pending
  | confirmed
  | reverted
  | reorged
  | dropped
  | other (text : String)
  deriving DecidableEq, Repr

structure EngineReceipt where
  id : ReceiptId
  executionId : ExecutionId
  transactionAttemptId : AttemptId
  txHash : String
  status : EngineReceiptStatus
  blockNumber : Option Nat
  blockHash : Option String
  gasUsed : Option Wei
  effectiveGasPrice : Option Wei
  l1DataFeeWei : Option Wei
  operatorFeeWei : Option Wei
  finalityStage : Option FinalityStage
  robinhoodFinality : Option RobinhoodFinality
  observedAt : Time
  deriving DecidableEq, Repr

def EngineReceiptStatus.valid : EngineReceiptStatus → Bool
  | .other _ => false
  | _ => true

/-- The receipt state of a reported status. -/
def EngineReceiptStatus.state : EngineReceiptStatus → ExecutionState
  | .pending => .pending
  | .confirmed => .confirmed
  | .reorged => .reorged
  | .reverted | .dropped | .other _ => .failed

/-- The finality stage a reported receipt carries. -/
def EngineReceipt.stage (input : EngineReceipt) : Option FinalityStage :=
  input.finalityStage <|> input.robinhoodFinality.map RobinhoodFinality.stage

/-- The amount an engine receipt says was spent. -/
def EngineReceipt.actualSpendWei (input : EngineReceipt) (identity : ExecutionIdentity) : Wei :=
  (if input.status = .reverted ∨ input.status = .reorged ∨ input.status = .dropped then 0
    else identity.valueWei) +
    input.gasUsed.getD 0 * input.effectiveGasPrice.getD 0 + input.l1DataFeeWei.getD 0 +
    input.operatorFeeWei.getD 0

/-- The receipt record that `persistEngineReceipt` adds. -/
def EngineReceipt.record (input : EngineReceipt) (identity : ExecutionIdentity) :
    ReceiptRecord where
  id := input.id
  executionId := input.executionId
  runId := identity.runId
  transactionAttemptId := some input.transactionAttemptId
  state := input.status.state
  finalityStage := input.stage
  robinhoodFinality :=
    if identity.chainId = .robinhood then
      match input.stage with
      | some .soft => some .soft
      | some .posted => some .posted
      | some .ethereumFinal => some .final
      | _ => none
    else none
  blockNumber := input.blockNumber
  blockHash := input.blockHash
  gasUsed := none
  effectiveGasPrice := none
  l1DataFeeWei := input.l1DataFeeWei
  operatorFeeWei := input.operatorFeeWei
  actualSpendWei := some (input.actualSpendWei identity)
  observedAt := input.observedAt

/-- `persistEngineReceipt`: a receipt without block facts is only noted. -/
def persistEngineReceipt (fleetPolicy : Option FleetSpendPolicy) (db : Db) (now : Time)
    (input : EngineReceipt) : Except Error Db := do
  let identity ← require (executionIdentity db input.executionId) "EXECUTION_CHAIN_REQUIRED"
  if input.blockNumber = none ∨ input.blockHash.filter (· ≠ "") = none then
    persistEvent db { runId := none, type := .pendingReceipt input.executionId }
  else do
    refuse (input.status.valid = false) "LIFECYCLE_RECEIPT_STATUS_INVALID"
    let attemptHash ← require
      (((db.attempt input.transactionAttemptId).filter fun row =>
        row.executionId = input.executionId).bind fun row => row.txHash.filter (· ≠ ""))
      "RECEIPT_TRANSACTION_HASH_REQUIRED"
    refuse (toLowerCase attemptHash ≠ toLowerCase input.txHash) "RECEIPT_ATTEMPT_HASH_MISMATCH"
    if ∃ receipt ∈ (snapshot db).receipts, receipt.id = input.id then return db
    else
      let audited :=
        { db with
          receiptAccounting := db.receiptAccounting ++
            [{ receiptId := input.id, actualSpendWei := input.actualSpendWei identity }] }
      persistDelta fleetPolicy now audited (snapshot db)
        { snapshot db with
          receipts := (snapshot db).receipts ++ [input.record identity] }

/-! ## Aborting -/

/-- The execution states that `abortRemaining` selects. -/
def abortableStates : List LifecycleState :=
  [.prepared, .signed, .submitted, .pending, .executing]

namespace Db

/-- The execution has an attempt that carries a transaction hash. -/
def Submitted (db : Db) (id : ExecutionId) : Prop :=
  ∃ row ∈ db.attempts, row.executionId = id ∧ row.txHash ≠ none

instance (db : Db) (id : ExecutionId) : Decidable (db.Submitted id) := by
  unfold Submitted
  infer_instance

/-- The execution has any attempt at all. -/
def Attempted (db : Db) (execution : ExecutionRow) : Prop :=
  ∃ row ∈ db.attempts, row.executionId = execution.id ∨
    row.transactionIntentId = execution.transactionIntentId

instance (db : Db) (execution : ExecutionRow) : Decidable (db.Attempted execution) := by
  unfold Attempted
  infer_instance

/-- Release the reserved reservations of an execution. -/
def releaseExecution (db : Db) (id : ExecutionId) : Db :=
  { db with
    reservations := Table.update SpendReservationRow.executionId id
      SpendReservationRow.release db.reservations }

end Db

/-- Move an execution to `aborted`, unless it was read as aborted. -/
def moveToAborted (db : Db) (row : ExecutionRow) : Except Error Db :=
  if row.state ≠ .aborted then transitionExecution db row.id .aborted else .ok db

/-- Abort one execution and release its reserved money. -/
def abortExecution (db : Db) (row : ExecutionRow) : Except Error Db := do
  let moved ← moveToAborted db row
  return moved.releaseExecution row.id

/-- The run states in which a run is still open. -/
def ExecutionRunState.Open (state : ExecutionRunState) : Prop :=
  state = .prepared ∨ state = .active ∨ state = .recovering

instance (state : ExecutionRunState) : Decidable state.Open := by
  unfold ExecutionRunState.Open
  infer_instance

/-- `abortRemaining`: every unsent execution is aborted and released, and every
open run is aborted. -/
def abortRemaining (db : Db) : Except Error Db := do
  let rows := db.executions.filter fun row =>
    row.state ∈ abortableStates ∧ ¬ db.Submitted row.id
  let released ← rows.foldlM abortExecution db
  persistEvent
    { released with
      runs := released.runs.map fun row =>
        if row.state.Open then { row with state := .aborted } else row }
    { runId := none, type := .kill }

inductive CloseOutcome
  | closed
  | left
  | absent
  deriving DecidableEq, Repr

/-- `abortRunIfUnsent`: closes one open run when none of its executions was
ever attempted. -/
def abortRunIfUnsent (db : Db) (runId : RunId) : Except Error (Db × CloseOutcome) :=
  if ¬ ∃ run ∈ db.run runId, run.state.Open then .ok (db, .absent)
  else
    let rows := db.executions.filter fun row => row.runId = runId
    if ∃ row ∈ rows, db.Attempted row ∨ (row.state ≠ .prepared ∧ row.state ≠ .aborted) then
      .ok (db, .left)
    else do
      let released ← rows.foldlM abortExecution db
      let closed ← persistEvent
        { released with
          runs := Table.update ExecutionRunRow.id runId
            (fun row => { row with state := .aborted }) released.runs }
        { runId := some runId, type := .runClosedUnsent }
      return (closed, .closed)

/-! ## Settlement and the kill switch -/

/-- `transition` of the spend reservations to another status: every reservation
of the store is linked to an execution, so it is never settled in total here,
and money behind an attempt is neither released nor expired. -/
def transitionReservation (db : Db) (id : ReservationId) (status : ReservationStatus) :
    Except Error Db := do
  let row ← require ((db.reservation id).filter fun row => row.status = .reserved)
    "reservation is missing or no longer reservable"
  refuse (status = .settled) "linked reservations require authoritative component settlement"
  refuse ((status = .released ∨ status = .expired) ∧
      ∃ attempt ∈ db.attempts, attempt.executionId = row.executionId)
    "submitted reservations cannot be released or expired"
  return db.updateReservation id (SpendReservationRow.close status)

structure SettlementComponents where
  actualMintValueWei : Wei
  actualL2ExecutionGasWei : Wei
  actualL1DataGasWei : Wei
  actualPriorityFeeComponentWei : Wei
  actualReplacementBudgetWei : Wei
  authoritativeReceiptId : Option ReceiptId
  deriving DecidableEq, Repr

def SettlementComponents.total (components : SettlementComponents) : Wei :=
  components.actualMintValueWei + components.actualL2ExecutionGasWei +
    components.actualL1DataGasWei + components.actualPriorityFeeComponentWei +
    components.actualReplacementBudgetWei

/-- The stage that settles on the chain of an attempt is not the receipt's, or
the chain is disabled. -/
def Db.FinalityMissing (db : Db) (receipt : TransactionReceiptRow) (needsEnabled : Bool) : Prop :=
  ¬ ∃ attempt ∈ db.attempt receipt.transactionAttemptId,
    ∃ profile ∈ db.attemptProfile attempt,
      (needsEnabled = true → profile.executionEnabled = true) ∧
        receipt.finalityStage = profile.successFinalityStage

instance (db : Db) (receipt : TransactionReceiptRow) (needsEnabled : Bool) :
    Decidable (db.FinalityMissing receipt needsEnabled) := by
  unfold Db.FinalityMissing
  infer_instance

/-- The evidence checks of `settleExecutionComponentsInTransaction`. -/
def assertSettlementOutcome (db : Db) (row : SpendReservationRow)
    (components : SettlementComponents) : Except Error Unit := do
  let latestReceipt := db.latestReceipt row.executionId
  let latestReconciliation := db.latestReconciliation row.executionId
  refuse (latestReceipt = none ∧ latestReconciliation = none)
    "settlement requires authoritative receipt or reconciliation"
  refuse (∃ receipt ∈ latestReceipt, receipt.status = .confirmed ∧ db.FinalityMissing receipt true)
    "settlement requires enabled-chain finality"
  refuse (∃ receipt ∈ latestReceipt, receipt.status = .reverted ∧
      row.chainProfileId ≠ .ethereum ∧ db.FinalityMissing receipt false)
    "settlement requires enabled-chain finality"
  refuse (∃ receipt ∈ latestReceipt, receipt.status = .pending ∧
      ¬ ∃ record ∈ latestReconciliation, receipt.observedAt ≤ record.checkedAt ∧
        (record.state = .final ∨ record.state = .reorged))
    "settlement outcome is not authoritative"
  refuse (∃ record ∈ latestReconciliation, record.state = .ambiguous)
    "ambiguous reconciliation cannot settle"
  refuse (∃ id ∈ components.authoritativeReceiptId,
      latestReceipt.map TransactionReceiptRow.id ≠ some id)
    "settlement receipt is not the latest authoritative receipt"

/-- The components exceed what was reserved for them; on Base the fees share
one envelope. -/
def ComponentBoundExceeded (row : SpendReservationRow) (components : SettlementComponents) :
    Prop :=
  let l2Bound := row.l2ExecutionGasWei + row.buffers.l2ExecutionGasBufferWei
  let l1Bound := row.l1DataGasWei + row.buffers.l1DataGasBufferWei
  let priorityBound := row.priorityFeeComponentWei + row.buffers.priorityFeeBufferWei
  if row.chainProfileId = .base then
    l2Bound + l1Bound + priorityBound <
      components.actualL2ExecutionGasWei + components.actualL1DataGasWei +
        components.actualPriorityFeeComponentWei
  else
    l2Bound < components.actualL2ExecutionGasWei ∨ l1Bound < components.actualL1DataGasWei ∨
      priorityBound < components.actualPriorityFeeComponentWei

instance (row : SpendReservationRow) (components : SettlementComponents) :
    Decidable (ComponentBoundExceeded row components) := by
  unfold ComponentBoundExceeded
  infer_instance

/-- `settleExecutionComponents`: settling twice is allowed and changes
nothing. -/
def settleExecutionComponents (db : Db) (now : Time) (id : ReservationId)
    (components : SettlementComponents) : Except Error Db := do
  let row ← require (db.reservation id) "RESERVATION_NOT_FOUND"
  if row.status = .settled then return db
  else do
    refuse (row.status ≠ .reserved) "INVALID_RESERVATION_TRANSITION"
    refuse (components.actualMintValueWei < 0 ∨ components.actualL2ExecutionGasWei < 0 ∨
        components.actualL1DataGasWei < 0 ∨ components.actualPriorityFeeComponentWei < 0 ∨
        components.actualReplacementBudgetWei < 0)
      "settled amounts must be non-negative"
    assertSettlementOutcome db row components
    refuse (row.mintValueWei + row.buffers.mintValueBufferWei < components.actualMintValueWei ∨
        ComponentBoundExceeded row components ∨
        row.buffers.replacementBudgetWei < components.actualReplacementBudgetWei)
      "settled amount exceeds reservation bound"
    refuse (row.reservedAmountWei < components.total) "settled amount exceeds all-in reservation"
    refuse (¬ db.SettlementEvidence row.executionId)
      "settlement requires latest authoritative finality or reconciliation"
    refuse (components.total = 0) "CHECK constraint failed: spend_reservation"
    let settled := db.updateReservation id
      (SpendReservationRow.settle components.total components.total now)
    return { settled with
      ledgerEntries := settled.ledgerEntries ++
        [components.actualMintValueWei, components.actualL2ExecutionGasWei,
          components.actualL1DataGasWei, components.actualPriorityFeeComponentWei,
          components.actualReplacementBudgetWei].map fun amount =>
            { executionId := row.executionId, amountWei := amount } }

/-- `setKillSwitch`. -/
def setKillSwitch (db : Db) (engaged : Bool) : Db :=
  { db with killed := engaged }

/-! ## Reservations only move forward

Every write but an admission takes each reservation row to a later one. -/

theorem foldlM_later {β : Type} {step : Db → β → Except Error Db} {items : List β}
    (each : ∀ db, ∀ item ∈ items, ∀ db', step db item = .ok db' → db.LaterReservations db')
    {db db' : Db} (success : items.foldlM step db = .ok db') : db.LaterReservations db' :=
  foldlM_related (R := Db.LaterReservations)
    (fun _ state item member next earlier stepped =>
      earlier.trans (each state item member next stepped))
    (.of_eq rfl) success

theorem persistIntent_reservations {fleetPolicy : Option FleetSpendPolicy} {now : Time}
    {db db' : Db} {intent : IntentRecord}
    (success : persistIntent fleetPolicy now db intent = .ok db') :
    db'.reservations = db.reservations := by
  obtain ⟨feePolicies, intents, rfl⟩ := persistIntent_shape success
  rfl

theorem persistEvent_reservations {db db' : Db} {event : EventRecord}
    (success : persistEvent db event = .ok db') : db'.reservations = db.reservations := by
  obtain ⟨-, rfl⟩ := persistEvent_eq_ok.mp success
  rfl

theorem persistDelta_later {fleetPolicy : Option FleetSpendPolicy} {now : Time} {db db' : Db}
    {previous next : BackendState}
    (success : persistDelta fleetPolicy now db previous next = .ok db') :
    db.LaterReservations db' := by
  simp only [persistDelta, bind_eq_ok, pure_eq_ok] at success
  rcases success with ⟨runs, runsDone, intents, intentsDone, attempts, attemptsDone, receipts,
    receiptsDone, reconciliations, reconciliationsDone, reservations, reservationsDone, events,
    eventsDone, rfl⟩
  have afterRuns := foldlM_later
    (fun _ _ _ _ stepped => .of_eq (persistRun_reservations stepped)) runsDone
  have afterIntents := foldlM_later
    (fun _ _ _ _ stepped => .of_eq (persistIntent_reservations stepped)) intentsDone
  have afterAttempts := foldlM_later
    (fun _ _ _ _ stepped => .of_eq (persistAttempt_reservations stepped)) attemptsDone
  have afterReceipts := foldlM_later
    (fun _ _ _ _ stepped => .of_eq (persistReceipt_reservations stepped)) receiptsDone
  have afterReconciliations := foldlM_later
    (fun _ _ _ _ stepped => .of_eq (persistReconciliation_reservations stepped))
    reconciliationsDone
  have afterReservations := foldlM_later
    (fun _ _ _ _ stepped => persistReservation_later stepped) reservationsDone
  have afterEvents := foldlM_later
    (fun _ _ _ _ stepped => .of_eq (persistEvent_reservations stepped)) eventsDone
  exact (((((afterRuns.trans afterIntents).trans afterAttempts).trans afterReceipts).trans
    afterReconciliations).trans afterReservations).trans afterEvents

theorem transaction_later {fleetPolicy : Option FleetSpendPolicy} {now : Time} {db db' : Db}
    {mutate : BackendState → Except Error BackendState}
    (success : transaction fleetPolicy now db mutate = .ok db') : db.LaterReservations db' := by
  simp only [transaction, bind_eq_ok] at success
  rcases success with ⟨next, -, persisted⟩
  exact persistDelta_later persisted

theorem persistEngineAttempt_later {fleetPolicy : Option FleetSpendPolicy} {db db' : Db}
    {now : Time} {input : EngineAttempt}
    (success : persistEngineAttempt fleetPolicy db now input = .ok db') :
    db.LaterReservations db' := by
  simp only [persistEngineAttempt, bind_eq_ok] at success
  rcases success with ⟨identity, -, persisted⟩
  exact transaction_later persisted

theorem persistEngineReceipt_later {fleetPolicy : Option FleetSpendPolicy} {db db' : Db}
    {now : Time} {input : EngineReceipt}
    (success : persistEngineReceipt fleetPolicy db now input = .ok db') :
    db.LaterReservations db' := by
  simp only [persistEngineReceipt, bind_eq_ok] at success
  rcases success with ⟨identity, -, written⟩
  split at written
  · exact .of_eq (persistEvent_reservations written)
  · simp only [bind_eq_ok] at written
    rcases written with ⟨⟨⟩, -, attemptHash, -, ⟨⟩, -, persisted⟩
    split at persisted
    · exact .of_eq (pure_eq_ok.mp persisted ▸ rfl)
    · have later := persistDelta_later persisted
      exact later

theorem releaseExecution_later (db : Db) (id : ExecutionId) :
    db.LaterReservations (db.releaseExecution id) :=
  Table.forall₂_update (fun row _ => .same row) fun row _ _ => row.later_release

theorem moveToAborted_shape {db db' : Db} {row : ExecutionRow}
    (success : moveToAborted db row = .ok db') :
    db' = db ∨ db' = db.setExecutionState row.id .aborted := by
  unfold moveToAborted at success
  split at success
  · exact transitionExecution_shape success
  · exact Or.inl (Except.ok.inj success).symm

theorem abortExecution_later {db db' : Db} {row : ExecutionRow}
    (success : abortExecution db row = .ok db') : db.LaterReservations db' := by
  simp only [abortExecution, bind_eq_ok, pure_eq_ok] at success
  rcases success with ⟨moved, aborting, rfl⟩
  have kept : db.LaterReservations moved := by
    rcases moveToAborted_shape aborting with rfl | rfl <;> exact .of_eq rfl
  exact kept.trans (releaseExecution_later moved row.id)

theorem abortRemaining_later {db db' : Db} (success : abortRemaining db = .ok db') :
    db.LaterReservations db' := by
  simp only [abortRemaining, bind_eq_ok] at success
  rcases success with ⟨released, aborted, noted⟩
  have afterRows := foldlM_later (fun _ _ _ _ stepped => abortExecution_later stepped) aborted
  have kept := persistEvent_reservations noted
  exact afterRows.trans (.of_eq kept)

theorem abortRunIfUnsent_later {db db' : Db} {runId : RunId} {outcome : CloseOutcome}
    (success : abortRunIfUnsent db runId = .ok (db', outcome)) : db.LaterReservations db' := by
  unfold abortRunIfUnsent at success
  split at success
  · exact .of_eq (by cases success; rfl)
  · dsimp only at success
    split at success
    · exact .of_eq (by cases success; rfl)
    · simp only [bind_eq_ok, pure_eq_ok, Prod.mk.injEq] at success
      rcases success with ⟨released, aborted, closed, noted, rfl, -⟩
      have afterRows :=
        foldlM_later (fun _ _ _ _ stepped => abortExecution_later stepped) aborted
      have kept := persistEvent_reservations noted
      exact afterRows.trans (.of_eq kept)

theorem transitionReservation_later {db db' : Db} {id : ReservationId}
    {status : ReservationStatus} (success : transitionReservation db id status = .ok db') :
    db.LaterReservations db' := by
  simp only [transitionReservation, bind_eq_ok, pure_eq_ok, refuse_eq_ok] at success
  rcases success with ⟨found, -, ⟨⟩, unsettled, ⟨⟩, -, rfl⟩
  refine db.updateReservation_later id fun row => ?_
  cases status with
  | reserved =>
      unfold SpendReservationRow.close
      split
      · rename_i pending
        rw [← pending]
        exact .same row
      · exact .same row
  | settled => exact absurd rfl unsettled
  | released => exact row.later_close (Or.inl rfl)
  | expired => exact row.later_close (Or.inr rfl)

theorem settleExecutionComponents_later {db db' : Db} {now : Time} {id : ReservationId}
    {components : SettlementComponents}
    (success : settleExecutionComponents db now id components = .ok db') :
    db.LaterReservations db' := by
  simp only [settleExecutionComponents, bind_eq_ok] at success
  rcases success with ⟨row, -, settled⟩
  split at settled
  · exact .of_eq (pure_eq_ok.mp settled ▸ rfl)
  · simp only [bind_eq_ok, pure_eq_ok] at settled
    rcases settled with ⟨⟨⟩, -, ⟨⟩, -, ⟨⟩, -, ⟨⟩, -, ⟨⟩, -, ⟨⟩, -, ⟨⟩, -, rfl⟩
    exact db.updateReservation_later id fun row => row.later_settle _ _ now

end MintBot
