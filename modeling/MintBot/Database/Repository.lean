import MintBot.Database.Schema
import MintBot.Library.Fallible
import MintBot.Library.Table

/-!
# Guarded writes to the execution tables

The writes of the repository layer together with the triggers that may refuse
them.  `executionTransitions` is the table of `execution_state_transition_guard`;
a state that lists no successor is terminal.  Every write either returns the
changed database or the message of the refusal.
-/

namespace MintBot

open Fallible

/-- The successors that `execution_state_transition_guard` allows besides the
state itself. -/
def executionTransitions : LifecycleState → List LifecycleState
  | .prepared | .pending | .executing =>
      [.signed, .submitted, .failed, .aborted, .skipped]
  | .signed => [.submitted, .failed, .aborted]
  | .submitted =>
      [.included, .postedToEthereum, .ethereumFinal, .confirmed, .replaced, .reorged,
        .failed, .dropped, .aborted]
  | .included => [.postedToEthereum, .ethereumFinal, .confirmed, .reorged, .failed, .dropped]
  | .postedToEthereum => [.ethereumFinal, .reorged, .failed]
  | .confirmed | .ethereumFinal => [.minted, .reorged, .settled]
  | .minted => [.reorged, .settled]
  | .replaced | .reorged => [.submitted, .failed, .dropped]
  | .failed | .dropped | .aborted | .skipped | .killed | .settled => []

/-- `execution_state_transition_guard` lets the state change through. -/
def ExecutionStateTransition (old new : LifecycleState) : Prop :=
  new = old ∨ new ∈ executionTransitions old

instance (old new : LifecycleState) : Decidable (ExecutionStateTransition old new) := by
  unfold ExecutionStateTransition
  infer_instance

namespace Db

def profile (db : Db) (chainId : ChainId) : Option ChainProfile :=
  Table.lookup ChainProfile.chainId chainId db.chainProfiles

def run (db : Db) (id : RunId) : Option ExecutionRunRow :=
  Table.lookup ExecutionRunRow.id id db.runs

def intent (db : Db) (id : IntentRowId) : Option TransactionIntentRow :=
  Table.lookup TransactionIntentRow.id id db.intents

def execution (db : Db) (id : ExecutionId) : Option ExecutionRow :=
  Table.lookup ExecutionRow.id id db.executions

def attempt (db : Db) (id : AttemptId) : Option TransactionAttemptRow :=
  Table.lookup TransactionAttemptRow.id id db.attempts

def reservation (db : Db) (id : ReservationId) : Option SpendReservationRow :=
  Table.lookup SpendReservationRow.id id db.reservations

/-- Set the state of an execution row. -/
def setExecutionState (db : Db) (id : ExecutionId) (state : LifecycleState) : Db :=
  { db with
    executions := Table.update ExecutionRow.id id
      (fun row => { row with state := state }) db.executions }

end Db

/-- `transitionExecution` of the repository. -/
def repositoryTransitionExecution (db : Db) (id : ExecutionId) (newState : LifecycleState) :
    Except Error Db := do
  let current ← require (db.execution id) "execution not found"
  refuse (¬ ExecutionStateTransition current.state newState)
    "invalid execution lifecycle transition"
  return db.setExecutionState id newState

/-- `saveExecution`: new executions are stored as `prepared` and only once for
a campaign and wallet. -/
def saveExecution (db : Db) (record : ExecutionRow) : Except Error Db := do
  let intent ← require (db.intent record.transactionIntentId)
    "transaction intent not found for execution"
  refuse (intent.campaignId ≠ record.campaignId ∨ intent.walletId ≠ record.walletId)
    "execution does not match transaction intent"
  refuse (∃ row ∈ db.executions, row.id = record.id)
    "UNIQUE constraint failed: execution.id"
  refuse (∃ row ∈ db.executions,
      row.campaignId = record.campaignId ∧ row.walletId = record.walletId)
    "CAMPAIGN_WALLET_ALREADY_USED"
  return { db with executions := db.executions ++ [{ record with state := .prepared }] }

/-- The attempt a row says it replaces, which must belong to the same intent. -/
def replacedAttempt (db : Db) (record : TransactionAttemptRow) :
    Except Error (Option TransactionAttemptRow) :=
  match record.replacementOfId with
  | none => .ok none
  | some replaced => do
      let old ← require (db.attempt replaced)
        "replacement attempt must use the same transaction intent"
      refuse (old.transactionIntentId ≠ record.transactionIntentId)
        "replacement attempt must use the same transaction intent"
      return some old

/-- `recordAttempt`, with the attempt triggers. -/
def recordAttempt (db : Db) (record : TransactionAttemptRow) : Except Error Db := do
  let _ ← require (db.intent record.transactionIntentId)
    "transaction intent not found for attempt"
  let replacement ← replacedAttempt db record
  refuse (∃ old ∈ replacement, old.nonce ≠ record.nonce)
    "replacement attempt identity mismatch"
  let execution ← require (db.execution record.executionId)
    "transaction attempt does not match execution"
  refuse (execution.transactionIntentId ≠ record.transactionIntentId)
    "transaction attempt does not match execution"
  refuse (∃ nonce ∈ record.nonce, nonce < 0) "transaction nonce must be non-negative"
  refuse (∃ row ∈ db.attempts, row.id = record.id)
    "UNIQUE constraint failed: transaction_attempt.id"
  return { db with attempts := db.attempts ++ [record] }

/-- `receipt_status_finality_guard` refuses the pair. -/
def ReceiptFinalityInconsistent (status : ReceiptStatus) (stage : FinalityStage) : Prop :=
  ((stage = .posted ∨ stage = .ethereumFinal) ∧
      status ≠ .pending ∧ status ≠ .confirmed ∧ status ≠ .reverted) ∨
    ((status = .reorged ∨ status = .dropped) ∧ (stage = .posted ∨ stage = .ethereumFinal)) ∨
    (status = .reverted ∧ stage = .posted)

instance (status : ReceiptStatus) (stage : FinalityStage) :
    Decidable (ReceiptFinalityInconsistent status stage) := by
  unfold ReceiptFinalityInconsistent
  infer_instance

namespace Db

/-- The chain profile behind an attempt, through its intent and wallet. -/
def attemptProfile (db : Db) (attempt : TransactionAttemptRow) : Option ChainProfile := do
  let intent ← db.intent attempt.transactionIntentId
  db.profile intent.walletId.chainProfileId

/-- An enabled chain counts this stage as its success finality. -/
def EnabledFinality (db : Db) (attempt : TransactionAttemptRow) (stage : FinalityStage) : Prop :=
  ∃ profile ∈ db.attemptProfile attempt,
    profile.executionEnabled = true ∧ stage = profile.successFinalityStage

instance (db : Db) (attempt : TransactionAttemptRow) (stage : FinalityStage) :
    Decidable (db.EnabledFinality attempt stage) := by
  unfold EnabledFinality
  infer_instance

end Db

/-- `recordReceipt`, with the receipt triggers. -/
def recordReceipt (db : Db) (record : TransactionReceiptRow) : Except Error Db := do
  refuse (∃ amount ∈ [record.gasUsed, record.effectiveGasPrice, record.l1DataFeeWei,
      record.operatorFeeWei], ∃ wei ∈ amount, wei < 0)
    "receipt amounts must be non-negative"
  let attempt ← require (db.attempt record.transactionAttemptId)
    "transaction attempt not found for receipt"
  refuse (attempt.txHash.map toLowerCase ≠ some (toLowerCase record.txHash))
    "receipt hash does not match transaction attempt"
  refuse (attempt.executionId ≠ record.executionId) "receipt does not match execution"
  refuse (ReceiptFinalityInconsistent record.status record.finalityStage)
    "receipt status and finality are inconsistent"
  refuse (record.status = .confirmed ∧ ¬ db.EnabledFinality attempt record.finalityStage)
    "confirmed receipt requires enabled-chain finality"
  refuse (∃ row ∈ db.receipts, row.id = record.id)
    "UNIQUE constraint failed: transaction_receipt.id"
  return { db with receipts := db.receipts ++ [record] }

/-- `recordReconciliation`, with the identity triggers. -/
def recordReconciliation (db : Db) (record : ReconciliationRow) : Except Error Db := do
  let attempt ← require (db.attempt record.transactionAttemptId)
    "transaction attempt not found for reconciliation"
  refuse (attempt.txHash.map toLowerCase ≠ some (toLowerCase record.txHash) ∨
      attempt.nonce ≠ some record.nonce)
    "reconciliation identity does not match attempt"
  let execution ← require (db.execution record.executionId)
    "reconciliation execution not found"
  refuse (attempt.executionId ≠ execution.id)
    "reconciliation execution does not match attempt"
  return { db with reconciliations := db.reconciliations ++ [record] }

/-! ## What successful writes did -/

@[simp]
theorem Db.setExecutionState_reservations (db : Db) (id : ExecutionId) (state : LifecycleState) :
    (db.setExecutionState id state).reservations = db.reservations :=
  rfl

@[simp]
theorem Db.setExecutionState_attempts (db : Db) (id : ExecutionId) (state : LifecycleState) :
    (db.setExecutionState id state).attempts = db.attempts :=
  rfl

theorem repositoryTransitionExecution_eq_ok {db db' : Db} {id : ExecutionId}
    {newState : LifecycleState} :
    repositoryTransitionExecution db id newState = .ok db' ↔
      ∃ row, db.execution id = some row ∧ ExecutionStateTransition row.state newState ∧
        db.setExecutionState id newState = db' := by
  simp only [repositoryTransitionExecution, bind_eq_ok, require_eq_ok, refuse_eq_ok, pure_eq_ok]
  constructor
  · rintro ⟨row, found, ⟨⟩, allowed, result⟩
    exact ⟨row, found, not_not.mp allowed, result⟩
  · rintro ⟨row, found, allowed, result⟩
    exact ⟨row, found, ⟨⟩, not_not.mpr allowed, result⟩

theorem saveExecution_eq_ok {db db' : Db} {record : ExecutionRow} :
    saveExecution db record = .ok db' ↔
      (∃ intent, db.intent record.transactionIntentId = some intent ∧
        intent.campaignId = record.campaignId ∧ intent.walletId = record.walletId) ∧
      (∀ row ∈ db.executions, row.id ≠ record.id) ∧
      (∀ row ∈ db.executions,
        ¬ (row.campaignId = record.campaignId ∧ row.walletId = record.walletId)) ∧
      { db with executions := db.executions ++ [{ record with state := .prepared }] } = db' := by
  simp only [saveExecution, bind_eq_ok, require_eq_ok, refuse_eq_ok, pure_eq_ok]
  constructor
  · rintro ⟨intent, found, ⟨⟩, matching, ⟨⟩, newId, ⟨⟩, newWallet, result⟩
    push Not at matching newId
    exact ⟨⟨intent, found, matching⟩, newId, fun row member same =>
      newWallet ⟨row, member, same⟩, result⟩
  · rintro ⟨⟨intent, found, sameCampaign, sameWallet⟩, newId, newWallet, result⟩
    refine ⟨intent, found, ⟨⟩, by simp [sameCampaign, sameWallet], ⟨⟩, ?_, ⟨⟩, ?_, result⟩
    · rintro ⟨row, member, same⟩
      exact newId row member same
    · rintro ⟨row, member, same⟩
      exact newWallet row member same

/-- What `recordAttempt` and its triggers ask of a row. -/
structure Db.AttemptAccepted (db : Db) (record : TransactionAttemptRow) : Prop where
  intent : ∃ intent, db.intent record.transactionIntentId = some intent
  replacement : ∀ replaced ∈ record.replacementOfId, ∃ old, db.attempt replaced = some old ∧
    old.transactionIntentId = record.transactionIntentId ∧ old.nonce = record.nonce
  execution : ∃ execution, db.execution record.executionId = some execution ∧
    execution.transactionIntentId = record.transactionIntentId
  nonce : ∀ nonce ∈ record.nonce, 0 ≤ nonce
  fresh : ∀ row ∈ db.attempts, row.id ≠ record.id

theorem replacedAttempt_eq_ok {db : Db} {record : TransactionAttemptRow}
    {replacement : Option TransactionAttemptRow} :
    replacedAttempt db record = .ok replacement ↔
      (record.replacementOfId = none ∧ replacement = none) ∨
        ∃ replaced old, record.replacementOfId = some replaced ∧
          db.attempt replaced = some old ∧
          old.transactionIntentId = record.transactionIntentId ∧ replacement = some old := by
  unfold replacedAttempt
  cases named : record.replacementOfId with
  | none => simp [eq_comm]
  | some id =>
      simp only [bind_eq_ok, require_eq_ok, refuse_eq_ok, pure_eq_ok, not_not, ne_eq]
      constructor
      · rintro ⟨old, found, ⟨⟩, sameIntent, rfl⟩
        exact Or.inr ⟨id, old, rfl, found, sameIntent, rfl⟩
      · rintro (⟨missing, -⟩ | ⟨_, old, ⟨⟩, found, sameIntent, rfl⟩)
        · simp at missing
        · exact ⟨old, found, ⟨⟩, sameIntent, rfl⟩

theorem recordAttempt_eq_ok {db db' : Db} {record : TransactionAttemptRow} :
    recordAttempt db record = .ok db' ↔
      db.AttemptAccepted record ∧ { db with attempts := db.attempts ++ [record] } = db' := by
  simp only [recordAttempt, bind_eq_ok, require_eq_ok, refuse_eq_ok, pure_eq_ok, not_exists,
    not_and, not_not, ne_eq, Int.not_lt]
  constructor
  · rintro ⟨intent, intentFound, replacement, replaced, ⟨⟩, sameNonce, execution,
      executionFound, ⟨⟩, sameIntent, ⟨⟩, nonceNonneg, ⟨⟩, fresh, result⟩
    refine ⟨⟨⟨intent, intentFound⟩, ?_, ⟨execution, executionFound, sameIntent⟩, nonceNonneg,
      fresh⟩, result⟩
    intro id named
    rw [Option.mem_def] at named
    rcases replacedAttempt_eq_ok.mp replaced with
      ⟨missing, -⟩ | ⟨_, old, named', found, sameOldIntent, rfl⟩
    · simp [named] at missing
    · obtain rfl : id = _ := Option.some.inj (named.symm.trans named')
      exact ⟨old, found, sameOldIntent, sameNonce old rfl⟩
  · rintro ⟨accepted, result⟩
    obtain ⟨intent, intentFound⟩ := accepted.intent
    obtain ⟨execution, executionFound, sameIntent⟩ := accepted.execution
    cases named : record.replacementOfId with
    | none =>
        exact ⟨intent, intentFound, none, replacedAttempt_eq_ok.mpr (Or.inl ⟨named, rfl⟩), ⟨⟩,
          by simp, execution, executionFound, ⟨⟩, sameIntent, ⟨⟩, accepted.nonce, ⟨⟩,
          accepted.fresh, result⟩
    | some id =>
        obtain ⟨old, found, sameOldIntent, sameNonce⟩ :=
          accepted.replacement id (by simp [named])
        exact ⟨intent, intentFound, some old,
          replacedAttempt_eq_ok.mpr (Or.inr ⟨id, old, named, found, sameOldIntent, rfl⟩), ⟨⟩,
          by simpa using sameNonce, execution, executionFound, ⟨⟩, sameIntent, ⟨⟩,
          accepted.nonce, ⟨⟩, accepted.fresh, result⟩

/-- What `recordReceipt` and its triggers ask of a row. -/
structure Db.ReceiptAccepted (db : Db) (record : TransactionReceiptRow) : Prop where
  amounts : ∀ amount ∈ [record.gasUsed, record.effectiveGasPrice, record.l1DataFeeWei,
    record.operatorFeeWei], ∀ wei ∈ amount, 0 ≤ wei
  attempt : ∃ attempt, db.attempt record.transactionAttemptId = some attempt ∧
    attempt.txHash.map toLowerCase = some (toLowerCase record.txHash) ∧
    attempt.executionId = record.executionId ∧
    (record.status = .confirmed → db.EnabledFinality attempt record.finalityStage)
  finality : ¬ ReceiptFinalityInconsistent record.status record.finalityStage
  fresh : ∀ row ∈ db.receipts, row.id ≠ record.id

theorem recordReceipt_eq_ok {db db' : Db} {record : TransactionReceiptRow} :
    recordReceipt db record = .ok db' ↔
      db.ReceiptAccepted record ∧ { db with receipts := db.receipts ++ [record] } = db' := by
  simp only [recordReceipt, bind_eq_ok, require_eq_ok, refuse_eq_ok, pure_eq_ok, not_exists,
    not_and, not_not, ne_eq, Int.not_lt]
  constructor
  · rintro ⟨⟨⟩, amounts, attempt, found, ⟨⟩, sameHash, ⟨⟩, sameExecution, ⟨⟩, finality, ⟨⟩,
      enabled, ⟨⟩, fresh, result⟩
    exact ⟨⟨amounts, ⟨attempt, found, sameHash, sameExecution, enabled⟩, finality, fresh⟩,
      result⟩
  · rintro ⟨⟨amounts, ⟨attempt, found, sameHash, sameExecution, enabled⟩, finality, fresh⟩,
      result⟩
    exact ⟨⟨⟩, amounts, attempt, found, ⟨⟩, sameHash, ⟨⟩, sameExecution, ⟨⟩, finality, ⟨⟩,
      enabled, ⟨⟩, fresh, result⟩

/-- What `recordReconciliation` and its triggers ask of a row. -/
structure Db.ReconciliationAccepted (db : Db) (record : ReconciliationRow) : Prop where
  attempt : ∃ attempt, db.attempt record.transactionAttemptId = some attempt ∧
    attempt.txHash.map toLowerCase = some (toLowerCase record.txHash) ∧
    attempt.nonce = some record.nonce ∧ attempt.executionId = record.executionId
  execution : ∃ execution, db.execution record.executionId = some execution

theorem recordReconciliation_eq_ok {db db' : Db} {record : ReconciliationRow} :
    recordReconciliation db record = .ok db' ↔
      db.ReconciliationAccepted record ∧
        { db with reconciliations := db.reconciliations ++ [record] } = db' := by
  simp only [recordReconciliation, bind_eq_ok, require_eq_ok, refuse_eq_ok, pure_eq_ok, not_or,
    not_not, ne_eq]
  constructor
  · rintro ⟨attempt, found, ⟨⟩, ⟨sameHash, sameNonce⟩, execution, executionFound, ⟨⟩,
      sameExecution, result⟩
    have named : execution.id = record.executionId := (Table.lookup_eq_some executionFound).2
    exact ⟨⟨⟨attempt, found, sameHash, sameNonce, sameExecution.trans named⟩,
      ⟨execution, executionFound⟩⟩, result⟩
  · rintro ⟨⟨⟨attempt, found, sameHash, sameNonce, sameExecution⟩,
      ⟨execution, executionFound⟩⟩, result⟩
    have named : execution.id = record.executionId := (Table.lookup_eq_some executionFound).2
    exact ⟨attempt, found, ⟨⟩, ⟨sameHash, sameNonce⟩, execution, executionFound, ⟨⟩,
      sameExecution.trans named.symm, result⟩

end MintBot
