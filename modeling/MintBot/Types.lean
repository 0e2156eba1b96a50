import Mathlib.Tactic.Common

/-!
# Domain types of the backend

The enumerations and records that the canonical store, the coordinator and the
engine adapter exchange.  Amounts are exact integers in wei and instants are
milliseconds.  Identifiers made by hashing a composed text are kept as the text
they are made from, so that two of them are equal exactly when the texts are.
Only the fields that the modelled functions read are kept.
-/

namespace MintBot

/-- An amount in wei. -/
abbrev Wei := Int

/-- An instant in milliseconds. -/
abbrev Time := Int

/-- `Number.MAX_SAFE_INTEGER`. -/
def maxSafeInteger : Int := 9007199254740991

/-- The message of a thrown error. -/
abbrev Error := String

/-- Text comparison in the code lower-cases addresses and hashes. -/
def toLowerCase (text : String) : String :=
  String.ofList (text.toList.map Char.toLower)

/-- A lower-case character is left alone. -/
theorem toLower_toLower (char : Char) : char.toLower.toLower = char.toLower := by
  delta Char.toLower
  split
  · rename_i upper
    split
    · rename_i again
      simp only [UInt32.le_iff_toNat_le, UInt32.toNat_add, seval] at upper again
      omega
    · rfl
  · rfl

/-- The supported chains: 1, 8453 and 4663. -/
inductive ChainId
  | ethereum
  | base
  | robinhood
  deriving DecidableEq, Repr

inductive MintClass
  | free
  | paid
  deriving DecidableEq, Repr

inductive RunMode
  | dryRun
  | live
  deriving DecidableEq, Repr

inductive BroadcastMode
  | flashbots
  | publicMode
  | sequencer
  deriving DecidableEq, Repr

/-- Campaign and run states as the backend names them. -/
inductive CampaignState
  | draft
  | validating
  | ready
  | armed
  | active
  | paused
  | completed
  | failed
  | aborted
  | cancelled
  deriving DecidableEq, Repr

/-- Attempt and receipt states as the backend names them. -/
inductive ExecutionState
  | prepared
  | signed
  | submitted
  | pending
  | confirmed
  | reorged
  | replaced
  | failed
  | aborted
  deriving DecidableEq, Repr

inductive FinalityStage
  | unknown
  | soft
  | posted
  | ethereumFinal
  deriving DecidableEq, Repr

inductive RobinhoodFinality
  | soft
  | posted
  | final
  deriving DecidableEq, Repr

inductive ReconciliationResult
  | confirmed
  | failed
  | unknown
  | reorged
  | soft
  | posted
  | final
  deriving DecidableEq, Repr

/-! ## Identifiers -/

abbrev RunId := String
abbrev CampaignId := String
abbrev IntentId := String

/-- `canonicalId('wallet', chainProfileId ':' address)`, with the address in
lower case. -/
structure WalletId where
  chainProfileId : ChainId
  address : String
  deriving DecidableEq, Repr

/-- `canonicalId('execution', runId ':' wallet)`, with the wallet in lower
case. -/
structure ExecutionId where
  runId : RunId
  wallet : String
  deriving DecidableEq, Repr

/-- `canonicalId('reservation', runId ':' wallet)`, with the wallet in lower
case. -/
structure ReservationId where
  runId : RunId
  wallet : String
  deriving DecidableEq, Repr

/-- `canonicalId('intent', intentId ':' wallet)`, with the wallet in lower
case. -/
structure IntentRowId where
  intentId : IntentId
  wallet : String
  deriving DecidableEq, Repr

/-- Classes of endpoint answers to a broadcast. -/
inductive BroadcastResponseClass
  | accepted
  | alreadyKnown
  | rejected
  | timeout
  | ambiguous
  | providerError
  deriving DecidableEq, Repr

/-- Ids of transaction attempts, by the part of the engine that makes them. -/
inductive AttemptId
  /-- `executionId ':attempt:signed'` -/
  | signed (executionId : ExecutionId)
  /-- `executionId ':attempt:' resultIndex ':' responseClass` -/
  | broadcast (executionId : ExecutionId) (resultIndex : Nat)
      (responseClass : BroadcastResponseClass)
  /-- `executionId ':attempt:replacement-' bump ':signed'` -/
  | replacementSigned (executionId : ExecutionId) (bump : Nat)
  /-- `executionId ':replacement-' bump ':attempt:' resultIndex ':' responseClass` -/
  | replacementBroadcast (executionId : ExecutionId) (bump resultIndex : Nat)
      (responseClass : BroadcastResponseClass)
  | other (text : String)
  deriving DecidableEq, Repr

/-- Ids of receipts, by the component that makes them. -/
inductive ReceiptId
  /-- `executionId ':receipt:' blockHash` -/
  | engine (executionId : ExecutionId) (blockHash : String)
  /-- `executionId ':base:' blockHash ':' stage` -/
  | base (executionId : ExecutionId) (blockHash : String) (stage : FinalityStage)
  /-- `executionId ':reconciled:' blockHash` -/
  | reconciled (executionId : ExecutionId) (blockHash : String)
  /-- `executionId ':reconciled:' blockHash ':reorged'` -/
  | reconciledReorged (executionId : ExecutionId) (blockHash : String)
  /-- `executionId ':reconciled:' blockHash ':final'` -/
  | reconciledFinal (executionId : ExecutionId) (blockHash : String)
  | other (text : String)
  deriving DecidableEq, Repr

/-- The execution that a generated attempt id names. -/
def AttemptId.execution : AttemptId → Option ExecutionId
  | .signed executionId | .broadcast executionId _ _ | .replacementSigned executionId _
  | .replacementBroadcast executionId _ _ _ => some executionId
  | .other _ => none

/-- The execution that a generated receipt id names. -/
def ReceiptId.execution : ReceiptId → Option ExecutionId
  | .engine executionId _ | .base executionId _ _ | .reconciled executionId _
  | .reconciledReorged executionId _ | .reconciledFinal executionId _ => some executionId
  | .other _ => none

/-- The fingerprint of a run request: the recorded digest, or the digest of the
run id when nothing is recorded. -/
inductive Fingerprint
  | recorded (text : String)
  | digest (runId : RunId)
  deriving DecidableEq, Repr

/-! ## Backend records -/

structure SpendPolicy where
  maxRunWei : Wei
  dailyCapWei : Wei
  gasCeilingWei : Wei
  deriving DecidableEq, Repr

structure FeePolicy where
  kind : MintClass
  configuredPriorityFeeWei : Wei
  l2ExecutionGasBudgetWei : Option Wei
  l1DataGasBudgetWei : Option Wei
  totalFeeBudgetWei : Option Wei
  freeTotalSpendCapWei : Option Wei
  deriving DecidableEq, Repr

structure Campaign where
  id : CampaignId
  chainId : ChainId
  quantity : Int
  mintPriceWei : Wei
  broadcastMode : Option BroadcastMode
  spendPolicy : SpendPolicy
  feePolicy : FeePolicy
  deriving DecidableEq, Repr

structure RunRecord where
  id : RunId
  intentId : IntentId
  campaignId : CampaignId
  mode : RunMode
  requestDigest : Fingerprint
  state : CampaignState
  deriving DecidableEq, Repr

structure IntentRecord where
  id : IntentId
  runId : RunId
  campaignId : CampaignId
  campaignSnapshot : Campaign
  wallets : List String
  deriving DecidableEq, Repr

structure AttemptRecord where
  id : AttemptId
  executionId : ExecutionId
  runId : RunId
  wallet : String
  nonce : Option Int
  hash : Option String
  replacementOfId : Option AttemptId
  state : ExecutionState
  robinhoodFinality : Option RobinhoodFinality
  createdAt : Time
  deriving DecidableEq, Repr

structure ReceiptRecord where
  id : ReceiptId
  executionId : ExecutionId
  runId : RunId
  transactionAttemptId : Option AttemptId
  state : ExecutionState
  finalityStage : Option FinalityStage
  robinhoodFinality : Option RobinhoodFinality
  blockNumber : Option Nat
  blockHash : Option String
  gasUsed : Option Wei
  effectiveGasPrice : Option Wei
  l1DataFeeWei : Option Wei
  operatorFeeWei : Option Wei
  actualSpendWei : Option Wei
  observedAt : Time
  deriving DecidableEq, Repr

structure ReconciliationRecord where
  runId : RunId
  attemptId : Option AttemptId
  result : ReconciliationResult
  observedAt : Time
  deriving DecidableEq, Repr

/-- Reservation states as the backend names them. -/
inductive ReservationState
  | reserved
  | settled
  | released
  | reorged
  deriving DecidableEq, Repr

structure Reservation where
  id : ReservationId
  runId : RunId
  wallet : String
  amountWei : Wei
  actualAmountWei : Option Wei
  status : ReservationState
  deriving DecidableEq, Repr

/-- The event types that the modelled functions write or look for. -/
inductive EventType
  | admission
  | kill
  | runClosedUnsent
  | executionFactsRecorded
  | executionOutcomeUnknown
  | pendingReceipt (executionId : ExecutionId)
  | robinhoodFinalityReported (receiptId : ReceiptId)
  deriving DecidableEq, Repr

structure EventRecord where
  runId : Option RunId
  type : EventType
  deriving DecidableEq, Repr

structure ExecutionResult where
  executionIds : List ExecutionId
  attempts : List AttemptRecord
  receipts : List ReceiptRecord
  state : ExecutionState
  deriving DecidableEq, Repr

structure ReconciliationUpdate where
  result : ReconciliationResult
  attempts : List AttemptRecord
  receipts : List ReceiptRecord
  reason : Option String
  deriving DecidableEq, Repr

/-- The part of the backend state that store transactions read and write. -/
structure BackendState where
  runs : List RunRecord
  intents : List IntentRecord
  attempts : List AttemptRecord
  receipts : List ReceiptRecord
  reconciliations : List ReconciliationRecord
  reservations : List Reservation
  events : List EventRecord
  killed : Bool
  deriving DecidableEq, Repr

end MintBot
