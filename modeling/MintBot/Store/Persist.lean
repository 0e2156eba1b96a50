import MintBot.Store.Snapshot

/-!
# Writing backend records to the tables

The `persist…` functions of the canonical store: each takes one backend record
that a transaction added or changed and writes the rows it stands for.  Every
attempt and every receipt also moves its execution, and a refused move fails
the whole transaction.
-/

namespace MintBot

open Fallible

/-! ## Moving executions -/

/-- `transitionExecutionSafe`: aborted executions stay where they are, and a
terminal fact about a prepared execution first records its submission. -/
def transitionExecutionSafe (db : Db) (id : ExecutionId) (target : LifecycleState) :
    Except Error Db :=
  match db.execution id with
  | none => .ok db
  | some row =>
      if row.state = .aborted then .ok db
      else if row.state = target then .ok db
      else if (target = .confirmed ∨ target = .reorged) ∧ row.state = .prepared then do
        let submitted ← repositoryTransitionExecution db id .submitted
        repositoryTransitionExecution submitted id target
      else repositoryTransitionExecution db id target

/-- `transitionExecution` of the store. -/
def transitionExecution (db : Db) (id : ExecutionId) (state : LifecycleState) :
    Except Error Db :=
  match db.execution id with
  | none => .ok db
  | some row => if row.state = state then .ok db else repositoryTransitionExecution db id state

/-- A move that `transitionExecutionSafe` carries out. -/
def SafeMove (old target : LifecycleState) : Prop :=
  ExecutionStateTransition old target ∨
    ((target = .confirmed ∨ target = .reorged) ∧ old = .prepared)

instance (old target : LifecycleState) : Decidable (SafeMove old target) := by
  unfold SafeMove
  infer_instance

theorem setExecutionState_setExecutionState (db : Db) (id : ExecutionId)
    (first second : LifecycleState) :
    (db.setExecutionState id first).setExecutionState id second =
      db.setExecutionState id second := by
  simp only [Db.setExecutionState, Table.update, List.map_map]
  congr 1
  refine List.map_congr_left fun row _ => ?_
  by_cases matched : row.id = id <;> simp [matched]

theorem execution_setExecutionState_self (db : Db) (id : ExecutionId) (state : LifecycleState) :
    (db.setExecutionState id state).execution id =
      (db.execution id).map fun row => { row with state := state } :=
  Table.lookup_update_self ExecutionRow.id id (fun row => { row with state := state })
    (fun _ => rfl) db.executions

theorem execution_setExecutionState_other (db : Db) {id other : ExecutionId}
    (differ : other ≠ id) (state : LifecycleState) :
    (db.setExecutionState id state).execution other = db.execution other :=
  Table.lookup_update_other ExecutionRow.id differ (fun row => { row with state := state })
    (fun _ => rfl) db.executions

theorem executionIds_setExecutionState (db : Db) (id : ExecutionId) (state : LifecycleState) :
    (db.setExecutionState id state).executions.map ExecutionRow.id =
      db.executions.map ExecutionRow.id :=
  Table.map_key_update ExecutionRow.id id (fun row => { row with state := state }) (fun _ _ => rfl)
    db.executions

/-- Moving an execution does not change its run. -/
theorem executionRun_setExecutionState (db : Db) (id other : ExecutionId)
    (state : LifecycleState) :
    ((db.setExecutionState id state).execution other).map ExecutionRow.runId =
      (db.execution other).map ExecutionRow.runId := by
  by_cases same : other = id
  · subst same
    rw [execution_setExecutionState_self, Option.map_map]
    rfl
  · rw [execution_setExecutionState_other db same state]

/-- `transitionExecutionSafe` leaves a missing, aborted or already moved
execution alone and otherwise makes a move the trigger lets through. -/
theorem transitionExecutionSafe_eq_ok {db db' : Db} {id : ExecutionId}
    {target : LifecycleState} :
    transitionExecutionSafe db id target = .ok db' ↔
      (db.execution id = none ∧ db = db') ∨
        ∃ row, db.execution id = some row ∧
          (((row.state = .aborted ∨ row.state = target) ∧ db = db') ∨
            (row.state ≠ .aborted ∧ row.state ≠ target ∧ SafeMove row.state target ∧
              db.setExecutionState id target = db')) := by
  unfold transitionExecutionSafe
  cases found : db.execution id with
  | none => simp
  | some row =>
      by_cases aborted : row.state = .aborted
      · simp [aborted]
      by_cases arrived : row.state = target
      · simp [arrived]
      by_cases early : (target = .confirmed ∨ target = .reorged) ∧ row.state = .prepared
      · dsimp only
        rw [if_neg aborted, if_neg arrived, if_pos early]
        simp only [bind_eq_ok, repositoryTransitionExecution_eq_ok, found]
        constructor
        · rintro ⟨submitted, ⟨old, ⟨⟩, -, rfl⟩, ⟨-, -, -, result⟩⟩
          rw [setExecutionState_setExecutionState] at result
          exact Or.inr ⟨row, rfl, Or.inr ⟨aborted, arrived, Or.inr early, result⟩⟩
        · rintro (⟨⟨⟩, -⟩ | ⟨_, ⟨⟩, ⟨same | same, -⟩ | ⟨-, -, -, result⟩⟩)
          · exact absurd same aborted
          · exact absurd same arrived
          · refine ⟨_, ⟨row, rfl, by simp [early.2, ExecutionStateTransition,
              executionTransitions], rfl⟩, { row with state := .submitted }, ?_, ?_, ?_⟩
            · rw [execution_setExecutionState_self, found, Option.map_some]
            · rcases early.1 with rfl | rfl <;> simp [ExecutionStateTransition, executionTransitions]
            · rw [setExecutionState_setExecutionState]
              exact result
      · dsimp only
        rw [if_neg aborted, if_neg arrived, if_neg early]
        simp only [repositoryTransitionExecution_eq_ok, found]
        constructor
        · rintro ⟨_, ⟨⟩, allowed, result⟩
          exact Or.inr ⟨row, rfl, Or.inr ⟨aborted, arrived, Or.inl allowed, result⟩⟩
        · rintro (⟨⟨⟩, -⟩ | ⟨_, ⟨⟩, ⟨same | same, -⟩ | ⟨-, -, allowed | sent, result⟩⟩)
          · exact absurd same aborted
          · exact absurd same arrived
          · exact ⟨row, rfl, allowed, result⟩
          · exact absurd sent early

/-- A successful safe transition changes nothing but the state of one
execution. -/
theorem transitionExecutionSafe_shape {db db' : Db} {id : ExecutionId}
    {target : LifecycleState} (success : transitionExecutionSafe db id target = .ok db') :
    db' = db ∨ db' = db.setExecutionState id target := by
  rcases transitionExecutionSafe_eq_ok.mp success with
    ⟨-, rfl⟩ | ⟨row, -, ⟨-, rfl⟩ | ⟨-, -, -, rfl⟩⟩
  · exact Or.inl rfl
  · exact Or.inl rfl
  · exact Or.inr rfl

/-- The execution exists and is aborted. -/
def Db.Aborted (db : Db) (id : ExecutionId) : Prop :=
  ∃ row, db.execution id = some row ∧ row.state = .aborted

/-- No execution leaves the aborted state. -/
theorem transitionExecutionSafe_aborted {db db' : Db} {id other : ExecutionId}
    {target : LifecycleState} (success : transitionExecutionSafe db id target = .ok db')
    (aborted : db.Aborted other) : db'.Aborted other := by
  obtain ⟨row, found, state⟩ := aborted
  rcases transitionExecutionSafe_eq_ok.mp success with
    ⟨-, rfl⟩ | ⟨moved, movedFound, ⟨-, rfl⟩ | ⟨alive, -, -, rfl⟩⟩
  · exact ⟨row, found, state⟩
  · exact ⟨row, found, state⟩
  · have differ : other ≠ id := by
      rintro rfl
      exact alive (Option.some.inj (movedFound.symm.trans found) ▸ state)
    exact ⟨row, (execution_setExecutionState_other db differ target).trans found, state⟩

theorem transitionExecution_shape {db db' : Db} {id : ExecutionId} {state : LifecycleState}
    (success : transitionExecution db id state = .ok db') :
    db' = db ∨ db' = db.setExecutionState id state := by
  unfold transitionExecution at success
  split at success
  · exact Or.inl (Except.ok.inj success).symm
  · split at success
    · exact Or.inl (Except.ok.inj success).symm
    · rcases repositoryTransitionExecution_eq_ok.mp success with ⟨-, -, -, result⟩
      exact Or.inr result.symm

/-! ## Attempts and receipts -/

/-- The execution state an attempt state asks for: its lower-case name, with
`pending` recorded as `submitted`. -/
def attemptTarget : ExecutionState → LifecycleState
  | .prepared => .prepared
  | .signed => .signed
  | .submitted | .pending => .submitted
  | .confirmed => .confirmed
  | .reorged => .reorged
  | .replaced => .replaced
  | .failed => .failed
  | .aborted => .aborted

/-- `intentRowIdFromExecution`. -/
def intentRowIdFromExecution (db : Db) (executionId : ExecutionId) (wallet : String)
    (runId : RunId) : Option IntentRowId :=
  match db.execution executionId with
  | some row => some row.transactionIntentId
  | none =>
      (db.intents.find? fun intent =>
        intent.runId = runId ∧ intent.walletId.address = toLowerCase wallet).map
        TransactionIntentRow.id

/-- The row an attempt is stored as. -/
def AttemptRecord.row (attempt : AttemptRecord) (intentId : IntentRowId) :
    TransactionAttemptRow where
  id := attempt.id
  transactionIntentId := intentId
  executionId := attempt.executionId
  responseClass := attempt.state
  txHash := attempt.hash
  nonce := attempt.nonce
  replacementOfId := attempt.replacementOfId
  attemptedAt := attempt.createdAt

/-- `persistAttempt`: a replacement competes for a nonce that was already
submitted, so it does not move the execution. -/
def persistAttempt (db : Db) (attempt : AttemptRecord) : Except Error Db := do
  let intentId ← require
    (intentRowIdFromExecution db attempt.executionId attempt.wallet attempt.runId)
    "TRANSACTION_INTENT_REQUIRED"
  let recorded ← recordAttempt db (attempt.row intentId)
  if attempt.replacementOfId ≠ none then return recorded
  else transitionExecutionSafe recorded attempt.executionId (attemptTarget attempt.state)

def RobinhoodFinality.stage : RobinhoodFinality → FinalityStage
  | .soft => .soft
  | .posted => .posted
  | .final => .ethereumFinal

/-- `canonicalReceiptFinalityStage`. -/
def canonicalReceiptFinalityStage (chainId : ChainId) (state : ExecutionState)
    (observed : Option FinalityStage) : FinalityStage :=
  if chainId ≠ .ethereum ∧ state = .failed ∧ observed = some .ethereumFinal then .ethereumFinal
  else if state ≠ .confirmed ∧ state ≠ .pending then .unknown
  else
    match observed with
    | some .soft => .soft
    | some .posted => .posted
    | some .ethereumFinal => .ethereumFinal
    | _ => if chainId = .ethereum ∧ state = .confirmed then .ethereumFinal else .unknown

/-- The finality stage a receipt is stored with. -/
def ReceiptRecord.storedStage (receipt : ReceiptRecord) (chainId : ChainId) : FinalityStage :=
  canonicalReceiptFinalityStage chainId receipt.state
    (receipt.finalityStage <|> receipt.robinhoodFinality.map RobinhoodFinality.stage)

/-- The receipt is a staged observation that settles nothing yet. -/
def ReceiptRecord.Staged (receipt : ReceiptRecord) (chainId : ChainId) : Prop :=
  receipt.storedStage chainId = .soft ∨ receipt.storedStage chainId = .posted ∨
    (receipt.state = .pending ∧ receipt.storedStage chainId ≠ .ethereumFinal)

instance (receipt : ReceiptRecord) (chainId : ChainId) : Decidable (receipt.Staged chainId) := by
  unfold ReceiptRecord.Staged
  infer_instance

/-- The status a receipt is stored with. -/
def ReceiptRecord.persistedStatus (receipt : ReceiptRecord) (chainId : ChainId) :
    ReceiptStatus :=
  if receipt.state = .reorged then .reorged
  else if receipt.state = .failed then .reverted
  else if receipt.Staged chainId then .pending
  else .confirmed

/-- The execution state a receipt asks for. -/
def ReceiptRecord.target (receipt : ReceiptRecord) (chainId : ChainId) : LifecycleState :=
  if receipt.persistedStatus chainId = .confirmed then .confirmed
  else if receipt.persistedStatus chainId = .reorged then .reorged
  else if receipt.Staged chainId then .submitted
  else .failed

/-- Endings of the response class in generated attempt ids. -/
def BroadcastResponseClass.text : BroadcastResponseClass → String
  | .accepted => "accepted"
  | .alreadyKnown => "already_known"
  | .rejected => "rejected"
  | .timeout => "timeout"
  | .ambiguous => "ambiguous"
  | .providerError => "provider_error"

/-- What follows the execution id in an attempt id: ids of one execution are
ordered by it. -/
def AttemptId.text : AttemptId → String
  | .signed _ => ":attempt:signed"
  | .broadcast _ resultIndex responseClass =>
      s!":attempt:{resultIndex}:{responseClass.text}"
  | .replacementSigned _ bump => s!":attempt:replacement-{bump}:signed"
  | .replacementBroadcast _ bump resultIndex responseClass =>
      s!":replacement-{bump}:attempt:{resultIndex}:{responseClass.text}"
  | .other text => text

/-- The newest attempt of an execution. -/
def Db.latestAttempt (db : Db) (executionId : ExecutionId) : Option TransactionAttemptRow :=
  Table.newest TransactionAttemptRow.attemptedAt (fun row => row.id.text)
    (db.attempts.filter fun row => row.executionId = executionId)

/-- The stored attempt a receipt belongs to: the one it names, else the newest
of its execution. -/
def Db.linkedAttempt (db : Db) (receipt : ReceiptRecord) : Option TransactionAttemptRow :=
  match receipt.transactionAttemptId with
  | some id => (db.attempt id).filter fun row => row.executionId = receipt.executionId
  | none => db.latestAttempt receipt.executionId

/-- The row a receipt is stored as. -/
def ReceiptRecord.row (receipt : ReceiptRecord) (chainId : ChainId) (attemptId : AttemptId)
    (txHash : String) (blockNumber : Nat) (blockHash : String) : TransactionReceiptRow where
  id := receipt.id
  transactionAttemptId := attemptId
  executionId := receipt.executionId
  txHash := txHash
  status := receipt.persistedStatus chainId
  blockNumber := blockNumber
  blockHash := blockHash
  gasUsed := receipt.gasUsed
  effectiveGasPrice := receipt.effectiveGasPrice
  l1DataFeeWei := receipt.l1DataFeeWei
  operatorFeeWei := receipt.operatorFeeWei
  finalityStage := receipt.storedStage chainId
  observedAt := receipt.observedAt

/-- The chain of the campaign of an execution. -/
def Db.executionChain (db : Db) (id : ExecutionId) : Option ChainId :=
  (db.execution id).bind fun row => db.chainProfileForCampaign row.campaignId

/-- `persistReceipt`. -/
def persistReceipt (db : Db) (receipt : ReceiptRecord) : Except Error Db := do
  let chainId ← require (db.executionChain receipt.executionId) "EXECUTION_CHAIN_REQUIRED"
  let attempt ← require (db.linkedAttempt receipt) "RECEIPT_PERSISTENCE_FACTS_REQUIRED"
  let blockNumber ← require receipt.blockNumber "RECEIPT_PERSISTENCE_FACTS_REQUIRED"
  let blockHash ← require (receipt.blockHash.filter (· ≠ ""))
    "RECEIPT_PERSISTENCE_FACTS_REQUIRED"
  refuse (receipt.actualSpendWei = none) "RECEIPT_PERSISTENCE_FACTS_REQUIRED"
  let txHash ← require (attempt.txHash.filter (· ≠ "")) "RECEIPT_TRANSACTION_HASH_REQUIRED"
  let recorded ← recordReceipt db (receipt.row chainId attempt.id txHash blockNumber blockHash)
  transitionExecutionSafe recorded receipt.executionId (receipt.target chainId)

/-- `persistReconciliation`: a result without the identity of a sent
transaction is not stored. -/
def persistReconciliation (db : Db) (record : ReconciliationRecord) : Except Error Db :=
  match record.attemptId.bind fun id => db.readAttempts.find? fun item => item.id = id with
  | none => .ok db
  | some attempt =>
      match attempt.hash, attempt.nonce with
      | some hash, some nonce => do
          let run ← require (db.run record.runId) "CHAIN_PROFILE_REQUIRED"
          let _ ← require (db.chainProfileForCampaign run.campaignId) "CHAIN_PROFILE_REQUIRED"
          recordReconciliation db
            { transactionAttemptId := attempt.id
              executionId := attempt.executionId
              txHash := hash
              nonce := nonce
              state := databaseReconciliationState record.result
              checkedAt := record.observedAt }
      | _, _ => .ok db

/-- An accepted attempt is appended and, unless it is a replacement, moves its
execution. -/
theorem persistAttempt_eq_ok {db db' : Db} {attempt : AttemptRecord} :
    persistAttempt db attempt = .ok db' ↔
      ∃ intentId,
        intentRowIdFromExecution db attempt.executionId attempt.wallet attempt.runId =
            some intentId ∧
          db.AttemptAccepted (attempt.row intentId) ∧
          if attempt.replacementOfId ≠ none then
            { db with attempts := db.attempts ++ [attempt.row intentId] } = db'
          else
            transitionExecutionSafe
              { db with attempts := db.attempts ++ [attempt.row intentId] }
              attempt.executionId (attemptTarget attempt.state) = .ok db' := by
  simp only [persistAttempt, bind_eq_ok, require_eq_ok, recordAttempt_eq_ok]
  constructor
  · rintro ⟨intentId, named, _, ⟨accepted, rfl⟩, moved⟩
    refine ⟨intentId, named, accepted, ?_⟩
    by_cases replaces : attempt.replacementOfId ≠ none
    · rw [if_pos replaces] at moved ⊢
      exact pure_eq_ok.mp moved
    · rw [if_neg replaces] at moved ⊢
      exact moved
  · rintro ⟨intentId, named, accepted, moved⟩
    refine ⟨intentId, named, _, ⟨accepted, rfl⟩, ?_⟩
    by_cases replaces : attempt.replacementOfId ≠ none
    · rw [if_pos replaces] at moved ⊢
      exact pure_eq_ok.mpr moved
    · rw [if_neg replaces] at moved ⊢
      exact moved

/-- The facts a receipt must carry and find to be stored as `row`. -/
structure ReceiptRecord.Persistable (receipt : ReceiptRecord) (db : Db) (chainId : ChainId)
    (row : TransactionReceiptRow) : Prop where
  chain : db.executionChain receipt.executionId = some chainId
  facts : ∃ attempt txHash blockNumber blockHash, db.linkedAttempt receipt = some attempt ∧
    attempt.txHash = some txHash ∧ txHash ≠ "" ∧ receipt.blockNumber = some blockNumber ∧
    receipt.blockHash = some blockHash ∧ blockHash ≠ "" ∧
    row = receipt.row chainId attempt.id txHash blockNumber blockHash
  spend : receipt.actualSpendWei ≠ none
  accepted : db.ReceiptAccepted row

/-- An accepted receipt is appended and moves its execution. -/
theorem persistReceipt_eq_ok {db db' : Db} {receipt : ReceiptRecord} :
    persistReceipt db receipt = .ok db' ↔
      ∃ chainId row, receipt.Persistable db chainId row ∧
        transitionExecutionSafe { db with receipts := db.receipts ++ [row] }
          receipt.executionId (receipt.target chainId) = .ok db' := by
  simp only [persistReceipt, bind_eq_ok, require_eq_ok, refuse_eq_ok, recordReceipt_eq_ok,
    Option.filter_eq_some_iff, decide_eq_true_eq]
  constructor
  · rintro ⟨chainId, chain, attempt, linked, blockNumber, numbered, blockHash,
      ⟨hashed, blockHashPresent⟩, ⟨⟩, spend, txHash, ⟨sent, txHashPresent⟩, _,
      ⟨accepted, rfl⟩, moved⟩
    exact ⟨chainId, _, ⟨chain, ⟨attempt, txHash, blockNumber, blockHash, linked, sent,
      txHashPresent, numbered, hashed, blockHashPresent, rfl⟩, spend, accepted⟩, moved⟩
  · rintro ⟨chainId, row, ⟨chain, ⟨attempt, txHash, blockNumber, blockHash, linked, sent,
      txHashPresent, numbered, hashed, blockHashPresent, rfl⟩, spend, accepted⟩, moved⟩
    exact ⟨chainId, chain, attempt, linked, blockNumber, numbered, blockHash,
      ⟨hashed, blockHashPresent⟩, ⟨⟩, spend, txHash, ⟨sent, txHashPresent⟩, _,
      ⟨accepted, rfl⟩, moved⟩

/-- A reconciliation record adds at most one row, in the state of its result. -/
theorem persistReconciliation_shape {db db' : Db} {record : ReconciliationRecord}
    (success : persistReconciliation db record = .ok db') :
    db' = db ∨ ∃ row : ReconciliationRow,
      row.state = databaseReconciliationState record.result ∧
        db' = { db with reconciliations := db.reconciliations ++ [row] } := by
  unfold persistReconciliation at success
  split at success
  · exact Or.inl (Except.ok.inj success).symm
  · split at success
    · simp only [bind_eq_ok, recordReconciliation_eq_ok] at success
      rcases success with ⟨-, -, -, -, -, result⟩
      exact Or.inr ⟨_, rfl, result.symm⟩
    · exact Or.inl (Except.ok.inj success).symm

/-! ## Reservations -/

/-- What follows the execution id in a receipt id: ids of one execution are
ordered by it. -/
def ReceiptId.text : ReceiptId → String
  | .engine _ blockHash => s!":receipt:{blockHash}"
  | .base _ blockHash stage =>
      match stage with
      | .unknown => s!":base:{blockHash}:unknown"
      | .soft => s!":base:{blockHash}:soft"
      | .posted => s!":base:{blockHash}:posted"
      | .ethereumFinal => s!":base:{blockHash}:ethereum_final"
  | .reconciled _ blockHash => s!":reconciled:{blockHash}"
  | .reconciledReorged _ blockHash => s!":reconciled:{blockHash}:reorged"
  | .reconciledFinal _ blockHash => s!":reconciled:{blockHash}:final"
  | .other text => text

namespace Db

/-- The newest receipt of an execution. -/
def latestReceipt (db : Db) (executionId : ExecutionId) : Option TransactionReceiptRow :=
  Table.newest TransactionReceiptRow.observedAt (fun row => row.id.text)
    (db.receipts.filter fun row => row.executionId = executionId)

/-- The newest reconciliation of an execution; records of one instant are
ordered as they were written. -/
def latestReconciliation (db : Db) (executionId : ExecutionId) : Option ReconciliationRow :=
  Table.newest ReconciliationRow.checkedAt (fun _ => "")
    (db.reconciliations.filter fun row => row.executionId = executionId).reverse

/-- `reservation_settlement_finality_guard` accepts the evidence of an
execution. -/
def SettlementEvidence (db : Db) (executionId : ExecutionId) : Prop :=
  (∃ receipt ∈ db.latestReceipt executionId,
      receipt.status = .confirmed ∧
        ∃ attempt ∈ db.attempt receipt.transactionAttemptId,
          db.EnabledFinality attempt receipt.finalityStage) ∨
    (∃ receipt ∈ db.latestReceipt executionId,
      receipt.status = .reverted ∨ receipt.status = .dropped ∨ receipt.status = .reorged) ∨
    ∃ record ∈ db.latestReconciliation executionId,
      (record.state = .final ∨ record.state = .reorged) ∧
        ∀ receipt ∈ db.receipts, receipt.executionId = executionId →
          receipt.observedAt ≤ record.checkedAt

instance (db : Db) (executionId : ExecutionId) :
    Decidable (db.SettlementEvidence executionId) := by
  unfold SettlementEvidence
  infer_instance

/-- Rewrite a reservation row. -/
def updateReservation (db : Db) (id : ReservationId)
    (change : SpendReservationRow → SpendReservationRow) : Db :=
  { db with reservations := Table.update SpendReservationRow.id id change db.reservations }

end Db

/-- The settled form of a reservation row; only reserved rows are settled. -/
def SpendReservationRow.settle (amountWei settledAmountWei : Wei) (now : Time)
    (row : SpendReservationRow) : SpendReservationRow :=
  if row.status = .reserved then
    { row with
      status := .settled
      amountWei := amountWei
      settledAmountWei := some settledAmountWei
      settledAt := some now }
  else row

/-- A reservation row closed without a payment; only reserved rows are closed. -/
def SpendReservationRow.close (status : ReservationStatus) (row : SpendReservationRow) :
    SpendReservationRow :=
  if row.status = .reserved then { row with status := status } else row

/-- The released form of a reservation row. -/
def SpendReservationRow.release (row : SpendReservationRow) : SpendReservationRow :=
  row.close .released

/-- `settleReservationTotal`: the amount column never becomes zero, the settled
amount may. -/
def settleReservationTotal (db : Db) (now : Time) (id : ReservationId)
    (actualAmountWei : Wei) : Except Error Db :=
  match db.reservation id with
  | none => .ok db
  | some row =>
      if row.status ≠ .reserved then .ok db
      else do
        refuse (actualAmountWei < 0 ∨ row.reservedAmountWei < actualAmountWei)
          "INVALID_SETTLEMENT_AMOUNT"
        refuse (¬ db.SettlementEvidence row.executionId)
          "settlement requires latest authoritative finality or reconciliation"
        let amountWei := if actualAmountWei = 0 then row.reservedAmountWei else actualAmountWei
        return db.updateReservation id (SpendReservationRow.settle amountWei actualAmountWei now)

/-- Release a reservation that is still reserved. -/
def releaseReservation (db : Db) (id : ReservationId) : Db :=
  db.updateReservation id SpendReservationRow.release

/-- `persistReservation`: settlement and release are written, a reorg keeps the
money reserved. -/
def persistReservation (db : Db) (now : Time) (reservation : Reservation)
    (prior : Option Reservation) : Except Error Db :=
  match prior with
  | none => .error "CANONICAL_RESERVATION_ADMISSION_REQUIRED"
  | some prior =>
      if prior.status = reservation.status ∧
          prior.actualAmountWei = reservation.actualAmountWei then .ok db
      else if prior.status = .settled then .ok db
      else
        match reservation.status with
        | .settled =>
            settleReservationTotal db now reservation.id
              (reservation.actualAmountWei.getD reservation.amountWei)
        | .released => .ok (releaseReservation db reservation.id)
        | .reorged | .reserved => .ok db

/-- A changed reservation is settled or released, or nothing is written. -/
theorem persistReservation_shape {db db' : Db} {now : Time} {next : Reservation}
    {prior : Option Reservation}
    (success : persistReservation db now next prior = .ok db') :
    db' = db ∨
      (∃ amountWei settledAmountWei, next.status = .settled ∧
        db' = db.updateReservation next.id
          (SpendReservationRow.settle amountWei settledAmountWei now)) ∨
      (next.status = .released ∧ db' = releaseReservation db next.id) := by
  unfold persistReservation at success
  split at success
  · cases success
  · split at success
    · exact Or.inl (Except.ok.inj success).symm
    · split at success
      · exact Or.inl (Except.ok.inj success).symm
      · split at success
        · rename_i settled
          unfold settleReservationTotal at success
          split at success
          · exact Or.inl (Except.ok.inj success).symm
          · split at success
            · exact Or.inl (Except.ok.inj success).symm
            · simp only [bind_eq_ok, pure_eq_ok] at success
              rcases success with ⟨⟨⟩, -, ⟨⟩, -, rfl⟩
              exact Or.inr (Or.inl ⟨_, _, settled, rfl⟩)
        · exact Or.inr (Or.inr ⟨‹_›, (Except.ok.inj success).symm⟩)
        · exact Or.inl (Except.ok.inj success).symm
        · exact Or.inl (Except.ok.inj success).symm

/-- A reservation row later in its life: it settles, is released or expires while
it is reserved, and nothing else happens to it. -/
inductive SpendReservationRow.Later : SpendReservationRow → SpendReservationRow → Prop
  | same (row : SpendReservationRow) : Later row row
  | settled {row : SpendReservationRow} (pending : row.status = .reserved)
      (amountWei settledAmountWei : Wei) (now : Time) :
      Later row
        { row with
          status := .settled
          amountWei := amountWei
          settledAmountWei := some settledAmountWei
          settledAt := some now }
  | closed {row : SpendReservationRow} (pending : row.status = .reserved)
      (status : ReservationStatus) (closing : status = .released ∨ status = .expired) :
      Later row { row with status := status }

namespace SpendReservationRow

theorem Later.trans {first second third : SpendReservationRow} (earlier : Later first second)
    (later : Later second third) : Later first third := by
  cases earlier with
  | same => exact later
  | settled pending amountWei settledAmountWei now =>
      cases later with
      | same => exact .settled pending amountWei settledAmountWei now
      | settled pendingAgain => simp at pendingAgain
      | closed pendingAgain => simp at pendingAgain
  | closed pending status closing =>
      cases later with
      | same => exact .closed pending status closing
      | settled pendingAgain => rcases closing with rfl | rfl <;> simp at pendingAgain
      | closed pendingAgain => rcases closing with rfl | rfl <;> simp at pendingAgain

theorem later_settle (row : SpendReservationRow) (amountWei settledAmountWei : Wei)
    (now : Time) : Later row (row.settle amountWei settledAmountWei now) := by
  by_cases pending : row.status = .reserved
  · rw [settle, if_pos pending]
    exact .settled pending amountWei settledAmountWei now
  · rw [settle, if_neg pending]
    exact .same row

theorem later_close (row : SpendReservationRow) {status : ReservationStatus}
    (closing : status = .released ∨ status = .expired) : Later row (row.close status) := by
  by_cases pending : row.status = .reserved
  · rw [close, if_pos pending]
    exact .closed pending status closing
  · rw [close, if_neg pending]
    exact .same row

theorem later_release (row : SpendReservationRow) : Later row row.release :=
  row.later_close (Or.inl rfl)

end SpendReservationRow

/-- The reservations of a database later on, none added. -/
def Db.LaterReservations (db db' : Db) : Prop :=
  List.Forall₂ SpendReservationRow.Later db.reservations db'.reservations

theorem Db.LaterReservations.of_eq {db db' : Db} (same : db'.reservations = db.reservations) :
    db.LaterReservations db' := by
  unfold Db.LaterReservations
  rw [same]
  exact List.forall₂_same.mpr fun row _ => .same row

theorem Db.LaterReservations.trans {first second third : Db}
    (earlier : first.LaterReservations second) (later : second.LaterReservations third) :
    first.LaterReservations third :=
  Table.forall₂_trans (fun _ _ _ before after => before.trans after) earlier later

theorem Db.updateReservation_later (db : Db) (id : ReservationId)
    {change : SpendReservationRow → SpendReservationRow}
    (changed : ∀ row, SpendReservationRow.Later row (change row)) :
    db.LaterReservations (db.updateReservation id change) :=
  Table.forall₂_update (fun row _ => .same row) fun row _ _ => changed row

theorem releaseReservation_later (db : Db) (id : ReservationId) :
    db.LaterReservations (releaseReservation db id) :=
  db.updateReservation_later id SpendReservationRow.later_release

theorem settleReservationTotal_later {db db' : Db} {now : Time} {id : ReservationId}
    {actualAmountWei : Wei}
    (success : settleReservationTotal db now id actualAmountWei = .ok db') :
    db.LaterReservations db' := by
  unfold settleReservationTotal at success
  split at success
  · exact .of_eq (Except.ok.inj success ▸ rfl)
  · split at success
    · exact .of_eq (Except.ok.inj success ▸ rfl)
    · simp only [bind_eq_ok, pure_eq_ok] at success
      rcases success with ⟨⟨⟩, -, ⟨⟩, -, rfl⟩
      exact db.updateReservation_later id fun row => row.later_settle _ _ now

theorem persistReservation_later {db db' : Db} {now : Time} {reservation : Reservation}
    {prior : Option Reservation}
    (success : persistReservation db now reservation prior = .ok db') :
    db.LaterReservations db' := by
  rcases persistReservation_shape success with rfl | ⟨amountWei, settledAmountWei, -, rfl⟩ | ⟨-, rfl⟩
  · exact .of_eq rfl
  · exact db.updateReservation_later reservation.id fun row => row.later_settle _ _ now
  · exact releaseReservation_later db reservation.id

/-! ## Writes that leave the reservations alone -/

theorem transitionExecutionSafe_reservations {db db' : Db} {id : ExecutionId}
    {target : LifecycleState} (success : transitionExecutionSafe db id target = .ok db') :
    db'.reservations = db.reservations := by
  rcases transitionExecutionSafe_shape success with rfl | rfl <;> rfl

theorem persistAttempt_reservations {db db' : Db} {attempt : AttemptRecord}
    (success : persistAttempt db attempt = .ok db') : db'.reservations = db.reservations := by
  rcases persistAttempt_eq_ok.mp success with ⟨intentId, -, -, moved⟩
  split at moved
  · exact moved ▸ rfl
  · have kept := transitionExecutionSafe_reservations moved
    exact kept

theorem persistReceipt_reservations {db db' : Db} {receipt : ReceiptRecord}
    (success : persistReceipt db receipt = .ok db') : db'.reservations = db.reservations := by
  rcases persistReceipt_eq_ok.mp success with ⟨chainId, row, -, moved⟩
  have kept := transitionExecutionSafe_reservations moved
  exact kept

theorem persistReconciliation_reservations {db db' : Db} {record : ReconciliationRecord}
    (success : persistReconciliation db record = .ok db') :
    db'.reservations = db.reservations := by
  rcases persistReconciliation_shape success with rfl | ⟨row, -, rfl⟩ <;> rfl

/-! ## Runs, intents and events -/

/-- `persistRun`. -/
def persistRun (db : Db) (run : RunRecord) (prior : Option RunRecord) : Except Error Db :=
  match prior with
  | none => do
      refuse (∃ row ∈ db.runs, row.id = run.id) "UNIQUE constraint failed: execution_run.id"
      return { db with
        runs := db.runs ++
          [{ id := run.id
             requestFingerprint := run.requestDigest
             backendRequestDigest := some run.requestDigest
             intentId := run.intentId
             campaignId := run.campaignId
             mode := run.mode
             state := dbRunState run.state }] }
  | some prior =>
      if prior.state = run.state then .ok db
      else .ok { db with
        runs := Table.update ExecutionRunRow.id run.id
          (fun row => { row with state := dbRunState run.state }) db.runs }

/-- `recordAudit` for an event: an event of a run needs the run. -/
def persistEvent (db : Db) (event : EventRecord) : Except Error Db := do
  refuse (∃ id ∈ event.runId, db.run id = none) "audit event entity does not exist"
  return { db with events := db.events ++ [event] }

theorem persistRun_reservations {db db' : Db} {run : RunRecord} {prior : Option RunRecord}
    (success : persistRun db run prior = .ok db') : db'.reservations = db.reservations := by
  unfold persistRun at success
  split at success
  · simp only [bind_eq_ok, pure_eq_ok] at success
    rcases success with ⟨⟨⟩, -, rfl⟩
    rfl
  · split at success <;> exact Except.ok.inj success ▸ rfl

theorem persistEvent_eq_ok {db db' : Db} {event : EventRecord} :
    persistEvent db event = .ok db' ↔
      (∀ id ∈ event.runId, db.run id ≠ none) ∧ { db with events := db.events ++ [event] } = db' := by
  simp only [persistEvent, bind_eq_ok, refuse_eq_ok, pure_eq_ok, not_exists, not_and]
  constructor
  · rintro ⟨⟨⟩, known, result⟩
    exact ⟨known, result⟩
  · rintro ⟨known, result⟩
    exact ⟨⟨⟩, known, result⟩

end MintBot
