import MintBot.Types

/-!
# Tables of the canonical database

One structure for each table that the modelled functions read or write, and the
database that holds them.  Rows that are joined only to find a chain (drop,
collection, contract) are folded into the row that needs the chain.  A chain
profile is named by its chain: `chain_id` is unique in its table.
-/

namespace MintBot

/-- `execution_run.state`. -/
inductive ExecutionRunState
  | prepared
  | active
  | recovering
  | completed
  | failed
  | aborted
  | cancelled
  deriving DecidableEq, Repr

/-- `execution.state`. -/
inductive LifecycleState
  | prepared
  | signed
  | submitted
  | included
  | postedToEthereum
  | ethereumFinal
  | confirmed
  | executing
  | minted
  | pending
  | replaced
  | reorged
  | failed
  | dropped
  | aborted
  | skipped
  | killed
  | settled
  deriving DecidableEq, Repr

/-- `spend_reservation.status`. -/
inductive ReservationStatus
  | reserved
  | settled
  | released
  | expired
  deriving DecidableEq, Repr

/-- `transaction_receipt.status`. -/
inductive ReceiptStatus
  | pending
  | confirmed
  | reverted
  | reorged
  | dropped
  deriving DecidableEq, Repr

/-- `reconciliation_record.state`. -/
inductive ReconciliationState
  | unresolved
  | matched
  | ambiguous
  | reorged
  | final
  deriving DecidableEq, Repr

/-- The newest `chain_verification` row of a profile. -/
structure ChainVerification where
  verified : Bool
  expiresAt : Option Time
  checkedAt : Time
  deriving DecidableEq, Repr

structure ChainProfile where
  chainId : ChainId
  executionEnabled : Bool
  successFinalityStage : FinalityStage
  verification : Option ChainVerification
  deriving DecidableEq, Repr

/-- A campaign row with the chain of its contract. -/
structure CampaignRow where
  id : CampaignId
  chainProfileId : ChainId
  deriving DecidableEq, Repr

/-- The active `fee_policy` row of a chain profile. -/
structure FeePolicyRow where
  chainProfileId : ChainId
  maxTotalFeeWei : Wei
  freeMintTotalFeeCapWei : Wei
  paidMintsEnabled : Bool
  zeroPriorityFeeAllowed : Bool
  deriving DecidableEq, Repr

/-- `execution_run`, with the facts its `reason` column encodes. -/
structure ExecutionRunRow where
  id : RunId
  requestFingerprint : Fingerprint
  backendRequestDigest : Option Fingerprint
  intentId : IntentId
  campaignId : CampaignId
  mode : RunMode
  state : ExecutionRunState
  deriving DecidableEq, Repr

structure TransactionIntentRow where
  id : IntentRowId
  campaignId : CampaignId
  walletId : WalletId
  valueWei : Wei
  runId : RunId
  campaignSnapshot : Campaign
  deriving DecidableEq, Repr

structure ExecutionRow where
  id : ExecutionId
  campaignId : CampaignId
  walletId : WalletId
  transactionIntentId : IntentRowId
  state : LifecycleState
  runId : RunId
  reservationId : Option ReservationId
  deriving DecidableEq, Repr

/-- Extra money that admission may reserve above the requested amounts. -/
structure AdmissionBuffers where
  replacementBudgetWei : Wei
  mintValueBufferWei : Wei
  l2ExecutionGasBufferWei : Wei
  l1DataGasBufferWei : Wei
  priorityFeeBufferWei : Wei
  deriving DecidableEq, Repr

structure SpendReservationRow where
  id : ReservationId
  walletId : WalletId
  executionId : ExecutionId
  transactionIntentId : IntentRowId
  requestFingerprint : Fingerprint
  chainProfileId : ChainId
  campaignId : CampaignId
  status : ReservationStatus
  amountWei : Wei
  reservedAmountWei : Wei
  settledAmountWei : Option Wei
  createdAt : Time
  settledAt : Option Time
  mintValueWei : Wei
  l2ExecutionGasWei : Wei
  l1DataGasWei : Wei
  priorityFeeComponentWei : Wei
  buffers : AdmissionBuffers
  deriving DecidableEq, Repr

structure TransactionAttemptRow where
  id : AttemptId
  transactionIntentId : IntentRowId
  executionId : ExecutionId
  responseClass : ExecutionState
  txHash : Option String
  nonce : Option Int
  replacementOfId : Option AttemptId
  attemptedAt : Time
  deriving DecidableEq, Repr

structure TransactionReceiptRow where
  id : ReceiptId
  transactionAttemptId : AttemptId
  executionId : ExecutionId
  txHash : String
  status : ReceiptStatus
  blockNumber : Nat
  blockHash : String
  gasUsed : Option Wei
  effectiveGasPrice : Option Wei
  l1DataFeeWei : Option Wei
  operatorFeeWei : Option Wei
  finalityStage : FinalityStage
  observedAt : Time
  deriving DecidableEq, Repr

structure ReconciliationRow where
  transactionAttemptId : AttemptId
  executionId : ExecutionId
  txHash : String
  nonce : Int
  state : ReconciliationState
  checkedAt : Time
  deriving DecidableEq, Repr

/-- A `spend_ledger_entry` other than a refund. -/
structure LedgerEntryRow where
  executionId : ExecutionId
  amountWei : Wei
  deriving DecidableEq, Repr

/-- The audit row that keeps the actual spend of an engine receipt. -/
structure ReceiptAccountingRow where
  receiptId : ReceiptId
  actualSpendWei : Wei
  deriving DecidableEq, Repr

/-- The owner's stored enablement of a chain.  The table refuses incomplete
evidence, so the record is judged by its times and its paid permission. -/
structure Enablement where
  approvedAt : Time
  expiresAt : Time
  paidAllowed : Bool
  deriving DecidableEq, Repr

/-- The canonical database.  Reservations are kept newest first, every other
table in the order its rows were inserted. -/
structure Db where
  killed : Bool
  chainProfiles : List ChainProfile
  campaigns : List CampaignRow
  feePolicies : List FeePolicyRow
  robinhoodEnablement : Option Enablement
  baseEnablement : Option Enablement
  admissionClockWatermark : Option Time
  runs : List ExecutionRunRow
  intents : List TransactionIntentRow
  executions : List ExecutionRow
  reservations : List SpendReservationRow
  attempts : List TransactionAttemptRow
  receipts : List TransactionReceiptRow
  reconciliations : List ReconciliationRow
  ledgerEntries : List LedgerEntryRow
  receiptAccounting : List ReceiptAccountingRow
  events : List EventRecord
  deriving DecidableEq, Repr

end MintBot
