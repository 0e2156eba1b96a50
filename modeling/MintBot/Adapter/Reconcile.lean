import MintBot.Adapter.MapResult
import MintBot.Store.Snapshot

/-!
# The reconcile adapter

`reconcile` asks the chain about the stored attempts of a run and reports what
it learned.  Ethereum, Base and Robinhood are read by three separate branches.
What a call to a provider answers, or that it fails, is an input here, one
answer for each attempt.
-/

namespace MintBot

/-- A receipt as a client returns it; block hashes are never empty. -/
structure ChainReceipt where
  succeeded : Bool
  blockNumber : Nat
  blockHash : String
  gasUsed : Nat
  effectiveGasPrice : Nat
  blockHashPresent : blockHash ≠ ""

/-- What one Base provider reports on a transaction. -/
structure BaseObservation where
  receipt : ChainReceipt
  stage : ObservedStage
  canonical : Option Bool
  reason : Option String
  l1DataFeeWei : Nat
  operatorFeeWei : Nat

/-- What the two Base providers answer for one attempt. -/
inductive BaseAnswer
  /-- A call failed. -/
  | unavailable
  /-- The fee fields of the receipt were refused. -/
  | feesRefused (reason : String)
  | answered (primary fallback : BaseObservation)

/-- A Robinhood receipt as the caller supplies it. -/
structure ObservedReceipt where
  succeeded : Bool
  blockNumber : Nat
  blockHash : String
  gasUsed : Nat
  effectiveGasPrice : Nat
  gasUsedForL1 : Option Nat
  deriving DecidableEq, Repr

inductive RobinhoodStage
  | soft
  | posted
  | ethereumFinal
  deriving DecidableEq, Repr

structure ObservedFinality where
  stage : RobinhoodStage
  canonical : Option Bool
  ready : Bool
  deriving DecidableEq, Repr

/-- What the configured providers answer during one reconcile call. -/
structure ChainAnswers where
  endpointAvailable : Bool
  fallbackAvailable : Bool
  ethereum : AttemptRecord → Option ChainReceipt
  base : AttemptRecord → BaseAnswer
  robinhoodReceipt : AttemptRecord → Option ObservedReceipt
  robinhoodFinality : AttemptRecord → Option ObservedFinality

/-- An attempt with a hash and a nonce can be looked up. -/
def AttemptRecord.Submitted (attempt : AttemptRecord) : Prop :=
  attempt.hash.getD "" ≠ "" ∧ attempt.nonce ≠ none

instance (attempt : AttemptRecord) : Decidable attempt.Submitted := by
  unfold AttemptRecord.Submitted
  infer_instance

/-- The cost of a mint with its gas, as the price of a failed one is kept. -/
def observedSpend (campaign : Campaign) (succeeded : Bool) (gasUsed effectiveGasPrice : Nat) : Wei :=
  (if succeeded then campaign.mintPriceWei * campaign.quantity else 0) +
    Int.ofNat (gasUsed * effectiveGasPrice)

def unknownUpdate (reason : String) : ReconciliationUpdate where
  result := .unknown
  attempts := []
  receipts := []
  reason := some reason

/-! ## Ethereum -/

section Ethereum

variable (stored : List ReceiptRecord) (run : RunRecord) (campaign : Campaign)
  (answer : AttemptRecord → Option ChainReceipt) (now : Time)

/-- The receipt found for an attempt that can be looked up. -/
def ethereumAnswer (attempt : AttemptRecord) : Option ChainReceipt :=
  if attempt.Submitted then answer attempt else none

def ethereumAttempt (attempt : AttemptRecord) : Option AttemptRecord :=
  (ethereumAnswer answer attempt).map fun receipt =>
    { attempt with state := if receipt.succeeded then .confirmed else .failed }

/-- The stored receipt of an execution in the block of a found receipt. -/
def reusedReceipt (attempt : AttemptRecord) (receipt : ChainReceipt) : Option ReceiptRecord :=
  stored.find? fun candidate =>
    candidate.executionId = attempt.executionId ∧ candidate.blockHash = some receipt.blockHash

/-- The stored receipt when there is one, a new one otherwise. -/
def ethereumReceipt (attempt : AttemptRecord) (receipt : ChainReceipt) : ReceiptRecord :=
  (reusedReceipt stored attempt receipt).getD
    { id := .reconciled attempt.executionId receipt.blockHash
      executionId := attempt.executionId
      runId := run.id
      transactionAttemptId := some attempt.id
      state := if receipt.succeeded then .confirmed else .failed
      finalityStage := none
      robinhoodFinality := none
      blockNumber := some receipt.blockNumber
      blockHash := some receipt.blockHash
      gasUsed := none
      effectiveGasPrice := none
      l1DataFeeWei := none
      operatorFeeWei := none
      actualSpendWei :=
        some (observedSpend campaign receipt.succeeded receipt.gasUsed receipt.effectiveGasPrice)
      observedAt := now }

/-- One receipt for each execution, from the first attempt that has one. -/
def ethereumReceipts : List ExecutionId → List AttemptRecord → List ReceiptRecord
  | _, [] => []
  | receiptExecutions, attempt :: rest =>
      match ethereumAnswer answer attempt with
      | none => ethereumReceipts receiptExecutions rest
      | some receipt =>
          if attempt.executionId ∈ receiptExecutions then ethereumReceipts receiptExecutions rest
          else
            ethereumReceipt stored run campaign now attempt receipt ::
              ethereumReceipts (attempt.executionId :: receiptExecutions) rest

/-- The result that the receipts of the Ethereum branch give. -/
def ethereumResult (receipts : List ReceiptRecord) : ReconciliationResult :=
  if receipts = [] then .unknown
  else if ∀ receipt ∈ receipts, receipt.state = .confirmed then .confirmed
  else .failed

/-- The Ethereum branch. -/
def reconcileEthereum (attempts : List AttemptRecord) : ReconciliationUpdate :=
  let receipts := ethereumReceipts stored run campaign answer now [] attempts
  { result := ethereumResult receipts
    attempts := attempts.filterMap (ethereumAttempt answer)
    receipts := receipts
    reason := if receipts = [] then some "receipt unavailable; outcome unresolved" else none }

end Ethereum

/-! ## Unique submissions -/

/-- Attempts of one execution, nonce and hash describe one transaction; without
a hash the attempt stands for itself. -/
structure SubmissionKey where
  executionId : ExecutionId
  nonce : Option Int
  hash : Option String
  attemptId : Option AttemptId
  deriving DecidableEq, Repr

def submissionKey (attempt : AttemptRecord) : SubmissionKey where
  executionId := attempt.executionId
  nonce := attempt.nonce
  hash := attempt.hash.map toLowerCase
  attemptId := if attempt.hash = none then some attempt.id else none

/-- The first attempt of a transaction is kept, except that an answered one
takes the place of a signed one. -/
def addSubmission (unique : List AttemptRecord) (attempt : AttemptRecord) : List AttemptRecord :=
  match Table.lookup submissionKey (submissionKey attempt) unique with
  | none => unique ++ [attempt]
  | some existing =>
      if existing.state = .signed ∧ attempt.state ≠ .signed then
        Table.update submissionKey (submissionKey attempt) (fun _ => attempt) unique
      else unique

/-- `uniqueSubmittedAttempts`. -/
def uniqueSubmittedAttempts (attempts : List AttemptRecord) : List AttemptRecord :=
  attempts.foldl addSubmission []

/-! ## Base -/

section Base

/-- `baseReceiptFactsAgree`. -/
def baseReceiptFactsAgree (primary fallback : ChainReceipt) : Prop :=
  toLowerCase primary.blockHash = toLowerCase fallback.blockHash ∧
    primary.blockNumber = fallback.blockNumber ∧ primary.succeeded = fallback.succeeded ∧
    primary.gasUsed = fallback.gasUsed ∧ primary.effectiveGasPrice = fallback.effectiveGasPrice

instance (primary fallback : ChainReceipt) : Decidable (baseReceiptFactsAgree primary fallback) := by
  unfold baseReceiptFactsAgree
  infer_instance

/-- What one attempt means for the whole Base branch: nothing, an early return,
or an observation at a stage. -/
inductive BaseOutcome
  | skipped
  | stopped (update : ReconciliationUpdate)
  | observed (stage : FinalityStage) (observation : BaseObservation)

def baseOutcome (answer : AttemptRecord → BaseAnswer) (attempt : AttemptRecord) : BaseOutcome :=
  if ¬ attempt.Submitted then .skipped
  else
    match answer attempt with
    | .unavailable => .skipped
    | .feesRefused reason => .stopped (unknownUpdate reason)
    | .answered primary fallback =>
        if ¬ baseReceiptFactsAgree primary.receipt fallback.receipt then
          .stopped (unknownUpdate "Base providers disagree on receipt facts")
        else if primary.stage ≠ fallback.stage ∨ primary.canonical ≠ fallback.canonical then
          .stopped (unknownUpdate "Base providers disagree on finality")
        else if primary.canonical ≠ some true then
          .stopped
            { result := if primary.canonical = some false then .reorged else .unknown
              attempts := []
              receipts := []
              reason := primary.reason }
        else if primary.operatorFeeWei ≠ fallback.operatorFeeWei ∨
            primary.l1DataFeeWei ≠ fallback.l1DataFeeWei then
          .stopped (unknownUpdate "Base providers disagree on fee components")
        else
          match stagedFinality (some primary.stage) with
          | none => .stopped (unknownUpdate "Base observer returned an invalid finality stage")
          | some stage => .observed stage primary

def BaseOutcome.stop : BaseOutcome → Option ReconciliationUpdate
  | .stopped update => some update
  | _ => none

def BaseOutcome.observation : BaseOutcome → Option (FinalityStage × BaseObservation)
  | .observed stage observation => some (stage, observation)
  | _ => none

/-- The state that an observed attempt and its receipt are given once final. -/
def finalState (succeeded : Bool) : ExecutionState :=
  if succeeded then .confirmed else .failed

/-- `weakest` after one more observed stage. -/
def weaken (weakest : ReconciliationResult) : FinalityStage → ReconciliationResult
  | .soft => .soft
  | .posted => if weakest = .final then .posted else weakest
  | _ => weakest

variable (run : RunRecord) (campaign : Campaign) (answer : AttemptRecord → BaseAnswer) (now : Time)

def baseAttempt (attempt : AttemptRecord) : Option AttemptRecord :=
  (baseOutcome answer attempt).observation.map fun seen =>
    { attempt with
      state := if seen.1 = .ethereumFinal then finalState seen.2.receipt.succeeded
        else .submitted }

/-- The receipt of an observation at a stage. -/
def baseReceiptRecord (attempt : AttemptRecord) (stage : FinalityStage)
    (observation : BaseObservation) : ReceiptRecord where
  id := .base attempt.executionId observation.receipt.blockHash stage
  executionId := attempt.executionId
  runId := run.id
  transactionAttemptId := some attempt.id
  state := if stage = .ethereumFinal then finalState observation.receipt.succeeded else .pending
  finalityStage := some stage
  robinhoodFinality := none
  blockNumber := some observation.receipt.blockNumber
  blockHash := some observation.receipt.blockHash
  gasUsed := some (Int.ofNat observation.receipt.gasUsed)
  effectiveGasPrice := some (Int.ofNat observation.receipt.effectiveGasPrice)
  l1DataFeeWei := some (Int.ofNat observation.l1DataFeeWei)
  operatorFeeWei := some (Int.ofNat observation.operatorFeeWei)
  actualSpendWei := some
    (observedSpend campaign observation.receipt.succeeded observation.receipt.gasUsed
      observation.receipt.effectiveGasPrice + Int.ofNat observation.l1DataFeeWei +
        Int.ofNat observation.operatorFeeWei)
  observedAt := now

def baseReceipt (attempt : AttemptRecord) : Option ReceiptRecord :=
  (baseOutcome answer attempt).observation.map fun seen =>
    baseReceiptRecord run campaign now attempt seen.1 seen.2

/-- The result that the receipts of the Base branch give. -/
def baseResult (receipts : List ReceiptRecord) : ReconciliationResult :=
  if receipts = [] then .unknown
  else if ∃ receipt ∈ receipts,
      receipt.state = .failed ∧ receipt.finalityStage = some .ethereumFinal then .failed
  else (receipts.filterMap ReceiptRecord.finalityStage).foldl weaken .final

/-- The Base branch: the first attempt that stops it decides, otherwise every
observed attempt counts. -/
def reconcileBase (attempts : List AttemptRecord) : ReconciliationUpdate :=
  let submitted := uniqueSubmittedAttempts attempts
  match submitted.findSome? fun attempt => (baseOutcome answer attempt).stop with
  | some update => update
  | none =>
      let receipts := submitted.filterMap (baseReceipt run campaign answer now)
      { result := baseResult receipts
        attempts := submitted.filterMap (baseAttempt answer)
        receipts := receipts
        reason :=
          if receipts = [] then some "Base receipt unavailable; outcome unresolved" else none }

end Base

/-! ## Robinhood -/

section Robinhood

/-- The receipt of a hash: the answer to the last submission that asked for it,
if that one is complete. -/
def completeReceipt (answer : AttemptRecord → Option ObservedReceipt)
    (submitted : List AttemptRecord) (attempt : AttemptRecord) : Option ObservedReceipt :=
  ((submitted.reverse.find? fun other =>
      other.hash.map toLowerCase = attempt.hash.map toLowerCase).bind answer).filter
    fun receipt => receipt.blockHash ≠ ""

/-- What one submission adds to the counters of the Robinhood branch. -/
inductive RobinhoodOutcome
  | missing
  | replaced
  | reorged (receipt : ObservedReceipt)
  | pending (stage : RobinhoodFinality)
  | final (receipt : ObservedReceipt)
  | failed (receipt : ObservedReceipt)
  deriving DecidableEq, Repr

/-- Another hash of the same execution and nonce was mined. -/
def SiblingMined (answer : AttemptRecord → Option ObservedReceipt)
    (submitted : List AttemptRecord) (attempt : AttemptRecord) : Prop :=
  ∃ other ∈ submitted, other.executionId = attempt.executionId ∧ other.nonce = attempt.nonce ∧
    other.hash.map toLowerCase ≠ attempt.hash.map toLowerCase ∧
    completeReceipt answer submitted other ≠ none

instance (answer : AttemptRecord → Option ObservedReceipt) (submitted : List AttemptRecord)
    (attempt : AttemptRecord) : Decidable (SiblingMined answer submitted attempt) := by
  unfold SiblingMined
  infer_instance

variable (answers : ChainAnswers) (submitted : List AttemptRecord)

def robinhoodOutcome (attempt : AttemptRecord) : RobinhoodOutcome :=
  match completeReceipt answers.robinhoodReceipt submitted attempt with
  | none => if SiblingMined answers.robinhoodReceipt submitted attempt then .replaced else .missing
  | some receipt =>
      match answers.robinhoodFinality attempt with
      | none => .missing
      | some observation =>
          match observation.canonical with
          | none => .missing
          | some false => .reorged receipt
          | some true =>
              if ¬ (observation.stage = .ethereumFinal ∧ observation.ready = true) then
                .pending (if observation.stage = .posted then .posted else .soft)
              else if ¬ ∃ l1 ∈ receipt.gasUsedForL1, l1 ≤ receipt.gasUsed then .missing
              else if receipt.succeeded then .final receipt
              else .failed receipt

def robinhoodAttempt (attempt : AttemptRecord) : Option AttemptRecord :=
  match robinhoodOutcome answers submitted attempt with
  | .missing => none
  | .replaced => some { attempt with state := .replaced }
  | .reorged _ => some { attempt with state := .failed }
  | .pending stage => some { attempt with robinhoodFinality := some stage }
  | .final _ => some { attempt with state := .confirmed, robinhoodFinality := some .final }
  | .failed _ => some { attempt with state := .failed, robinhoodFinality := some .final }

variable (run : RunRecord) (campaign : Campaign) (now : Time)

/-- A receipt of the Robinhood branch, reorged or final. -/
def robinhoodReceiptRecord (attempt : AttemptRecord) (receipt : ObservedReceipt)
    (state : ExecutionState) : ReceiptRecord where
  id :=
    if state = .reorged then .reconciledReorged attempt.executionId receipt.blockHash
    else .reconciledFinal attempt.executionId receipt.blockHash
  executionId := attempt.executionId
  runId := run.id
  transactionAttemptId := some attempt.id
  state := state
  finalityStage := if state = .reorged then none else some .ethereumFinal
  robinhoodFinality := if state = .reorged then none else some .final
  blockNumber := some receipt.blockNumber
  blockHash := some receipt.blockHash
  gasUsed := some (Int.ofNat receipt.gasUsed)
  effectiveGasPrice := some (Int.ofNat receipt.effectiveGasPrice)
  l1DataFeeWei := none
  operatorFeeWei := none
  actualSpendWei := some
    (if state = .reorged then 0
      else observedSpend campaign receipt.succeeded receipt.gasUsed receipt.effectiveGasPrice)
  observedAt := now

def robinhoodReceipt (attempt : AttemptRecord) : Option ReceiptRecord :=
  match robinhoodOutcome answers submitted attempt with
  | .reorged receipt => some (robinhoodReceiptRecord run campaign now attempt receipt .reorged)
  | .final receipt => some (robinhoodReceiptRecord run campaign now attempt receipt .confirmed)
  | .failed receipt => some (robinhoodReceiptRecord run campaign now attempt receipt .failed)
  | _ => none

/-- How many submissions have an outcome. -/
def countOutcomes (p : RobinhoodOutcome → Bool) : Nat :=
  submitted.countP fun attempt => p (robinhoodOutcome answers submitted attempt)

def RobinhoodOutcome.isMissing : RobinhoodOutcome → Bool
  | .missing => true
  | _ => false

def RobinhoodOutcome.isReplaced : RobinhoodOutcome → Bool
  | .replaced => true
  | _ => false

def RobinhoodOutcome.isReorged : RobinhoodOutcome → Bool
  | .reorged _ => true
  | _ => false

def RobinhoodOutcome.isPending : RobinhoodOutcome → Bool
  | .pending _ => true
  | _ => false

def RobinhoodOutcome.isFailed : RobinhoodOutcome → Bool
  | .failed _ => true
  | _ => false

def RobinhoodOutcome.isFinal : RobinhoodOutcome → Bool
  | .final _ => true
  | _ => false

/-- The result that the counters of the Robinhood branch give. -/
def robinhoodResult : ReconciliationResult :=
  let unreplaced := submitted.length - countOutcomes answers submitted RobinhoodOutcome.isReplaced
  if 0 < countOutcomes answers submitted RobinhoodOutcome.isMissing then .unknown
  else if 0 < countOutcomes answers submitted RobinhoodOutcome.isReorged then
    if countOutcomes answers submitted RobinhoodOutcome.isReorged = unreplaced then .reorged
    else .unknown
  else if 0 < countOutcomes answers submitted RobinhoodOutcome.isPending then
    if 0 < countOutcomes answers submitted (fun outcome => outcome = .pending .soft) then .soft
    else .posted
  else if 0 < countOutcomes answers submitted RobinhoodOutcome.isFailed then .failed
  else if countOutcomes answers submitted RobinhoodOutcome.isFinal = unreplaced then .final
  else .unknown

/-- `reconcileRobinhood`. -/
def reconcileRobinhood (attempts : List AttemptRecord) : ReconciliationUpdate :=
  let submitted := uniqueSubmittedAttempts (attempts.filter fun attempt => attempt.Submitted)
  if submitted = [] then unknownUpdate "no persisted transaction attempts"
  else
    { result := robinhoodResult answers submitted
      attempts := submitted.filterMap (robinhoodAttempt answers submitted)
      receipts := submitted.filterMap (robinhoodReceipt answers submitted run campaign now)
      reason :=
        if 0 < countOutcomes answers submitted RobinhoodOutcome.isMissing then
          some "a receipt, its finality or its L1 data fee could not be proven; outcome unresolved"
        else if robinhoodResult answers submitted = .unknown ∧
            0 < countOutcomes answers submitted RobinhoodOutcome.isReorged then
          some "mixed reorg; the reservation stays held for owner reconciliation"
        else none }

end Robinhood

/-- `reconcile` of the adapter. -/
def reconcile (state : BackendState) (answers : ChainAnswers) (now : Time) (run : RunRecord) :
    ReconciliationUpdate :=
  let attempts := state.attempts.filter fun attempt => attempt.runId = run.id
  match state.intents.find? fun candidate => candidate.id = run.intentId with
  | none => unknownUpdate "no persisted transaction attempts"
  | some intent =>
      let campaign := intent.campaignSnapshot
      if attempts = [] then unknownUpdate "no persisted transaction attempts"
      else if answers.endpointAvailable = false then unknownUpdate "chain endpoint unavailable"
      else
        match campaign.chainId with
        | .base =>
            if answers.fallbackAvailable = false then
              unknownUpdate "independent Base fallback endpoint unavailable"
            else reconcileBase run campaign answers.base now attempts
        | .robinhood => reconcileRobinhood answers run campaign now attempts
        | .ethereum => reconcileEthereum state.receipts run campaign answers.ethereum now attempts

end MintBot
