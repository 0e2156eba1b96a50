import MintBot.Engine.WalletTask

/-!
# The execute adapter

`mapResult` turns what the engine returns for a fleet into the result that the
coordinator records: the executions, attempts and receipts of every wallet that
has an identity, and one state for the whole fleet.
-/

namespace MintBot

open Fallible

/-- `robinhoodFinality`. -/
def robinhoodFinality : Option ObservedStage → Option RobinhoodFinality
  | some .soft => some .soft
  | some .posted => some .posted
  | some .ethereumFinal => some .final
  | _ => none

/-- The stages that receipts of staged chains are recorded with. -/
def stagedFinality : Option ObservedStage → Option FinalityStage
  | some .soft => some .soft
  | some .posted => some .posted
  | some .ethereumFinal => some .ethereumFinal
  | _ => none

/-- The id ends with `:signed`. -/
def AttemptId.endsWithSigned : AttemptId → Bool
  | .signed _ | .replacementSigned _ _ => true
  | .broadcast _ _ _ | .replacementBroadcast _ _ _ _ => false
  | .other text => ":signed".toList.isSuffixOf text.toList

/-- The wallet may still be mined. -/
def WalletMintResult.Pending (wallet : WalletMintResult) : Prop :=
  wallet.status = .timeout ∨ (wallet.txHash ≠ none ∧ wallet.blockNumber = none)

/-- The wallet did not mint. -/
def WalletMintResult.Failed (wallet : WalletMintResult) : Prop :=
  wallet.status = .failed ∨ wallet.status = .killed ∨ wallet.status = .skipped

instance (wallet : WalletMintResult) : Decidable wallet.Pending := by
  unfold WalletMintResult.Pending
  infer_instance

instance (wallet : WalletMintResult) : Decidable wallet.Failed := by
  unfold WalletMintResult.Failed
  infer_instance

/-- A wallet that was stopped before anything was prepared for it. -/
def WalletMintResult.StoppedUnprepared (wallet : WalletMintResult) : Prop :=
  (wallet.status = .skipped ∨ wallet.status = .killed) ∧ wallet.txHash = none ∧
    wallet.attemptIds = [] ∧ wallet.reservationId = none

instance (wallet : WalletMintResult) : Decidable wallet.StoppedUnprepared := by
  unfold WalletMintResult.StoppedUnprepared
  infer_instance

/-- What one wallet adds to the result. -/
structure WalletFacts where
  executionIds : List ExecutionId
  attempts : List AttemptRecord
  receipts : List ReceiptRecord
  hasPending : Bool
  hasFailed : Bool
  deriving DecidableEq, Repr

section Wallet

variable (dryRun : Bool) (runId : RunId) (chainId : ChainId) (now : Time)
  (wallet : WalletMintResult) (executionId : ExecutionId)

/-- The attempt that a result is attributed to. -/
def WalletMintResult.submission : Option AttemptId :=
  wallet.submittedAttemptId.or wallet.attemptIds.getLast?

/-- The state of a wallet with an identity. -/
def WalletMintResult.state : ExecutionState :=
  if dryRun then .prepared
  else if wallet.Pending then .pending
  else if wallet.Failed then .failed
  else .confirmed

def WalletMintResult.attempt (attemptId : AttemptId) : AttemptRecord where
  id := attemptId
  executionId := executionId
  runId := runId
  wallet := wallet.address
  nonce := wallet.nonce.map Int.ofNat
  hash :=
    ((Table.lookup Prod.fst attemptId wallet.attemptHashes).map Prod.snd).or wallet.txHash
  replacementOfId := (Table.lookup Prod.fst attemptId wallet.attemptReplacements).map Prod.snd
  state :=
    if attemptId ∈ wallet.replacedAttemptIds then .replaced
    else if some attemptId = wallet.submission then wallet.state dryRun
    else if attemptId.endsWithSigned then .signed
    else .submitted
  robinhoodFinality :=
    if chainId = .robinhood then robinhoodFinality wallet.finalityStage else none
  createdAt := now

def WalletMintResult.receipt (blockNumber : Nat) (blockHash : String) (totalCostWei : Nat) :
    ReceiptRecord where
  id := .engine executionId blockHash
  executionId := executionId
  runId := runId
  transactionAttemptId := wallet.submission
  state :=
    if wallet.lifecycleState = some .reorged then .reorged
    else if chainId = .base ∧ wallet.Pending then .pending
    else if wallet.Failed then .failed
    else .confirmed
  finalityStage :=
    if chainId ≠ .ethereum then stagedFinality wallet.finalityStage else none
  robinhoodFinality :=
    if chainId = .robinhood then robinhoodFinality wallet.finalityStage else none
  blockNumber := some blockNumber
  blockHash := some blockHash
  gasUsed := wallet.gasUsed.map Int.ofNat
  effectiveGasPrice := wallet.effectiveGasPrice.map Int.ofNat
  l1DataFeeWei := wallet.l1DataFeeWei.map Int.ofNat
  operatorFeeWei := wallet.operatorFeeWei.map Int.ofNat
  actualSpendWei := some (Int.ofNat totalCostWei)
  observedAt := now

/-- The receipt of a wallet whose transaction, block and cost are all known. -/
def WalletMintResult.receipts : Except Error (List ReceiptRecord) :=
  match wallet.txHash.filter (fun hash => hash ≠ ""), wallet.blockNumber,
      wallet.blockHash.filter (fun hash => hash ≠ ""), wallet.totalCostWei with
  | some _, some blockNumber, some blockHash, some totalCostWei => do
      refuse (wallet.submission = none ∧ dryRun = false) "ENGINE_ATTEMPT_IDENTITY_REQUIRED"
      return [wallet.receipt runId chainId now executionId blockNumber blockHash totalCostWei]
  | _, _, _, _ => .ok []

/-- The facts of a wallet with an identity. -/
def WalletMintResult.facts : Except Error WalletFacts := do
  let receipts ← wallet.receipts dryRun runId chainId now executionId
  return {
    executionIds := [executionId]
    attempts := wallet.attemptIds.map (wallet.attempt dryRun runId chainId now executionId)
    receipts := receipts
    hasPending := wallet.Pending
    hasFailed := wallet.Failed ∧ ¬ wallet.Pending }

/-- One turn of the wallet loop of `mapResult`. -/
def mapWallet : Except Error WalletFacts :=
  match wallet.executionId, wallet.transactionIntentId with
  | some executionId, some _ => wallet.facts dryRun runId chainId now executionId
  | _, _ =>
      if dryRun then .ok ⟨[], [], [], false, false⟩
      else if wallet.StoppedUnprepared then .ok ⟨[], [], [], false, true⟩
      else .error "ENGINE_IDENTITY_REQUIRED"

end Wallet

/-- `mapResult`. -/
def mapResult (result : MintJobResult) (runId : RunId) (chainId : ChainId) (now : Time) :
    Except Error ExecutionResult := do
  let facts ← result.walletResults.mapM (mapWallet result.dryRun runId chainId now)
  return {
    executionIds := facts.flatMap WalletFacts.executionIds
    attempts := facts.flatMap WalletFacts.attempts
    receipts := facts.flatMap WalletFacts.receipts
    state :=
      if result.dryRun then .prepared
      else if facts.any WalletFacts.hasPending then .pending
      else if facts.any WalletFacts.hasFailed then .failed
      else .confirmed }

end MintBot
