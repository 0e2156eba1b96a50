import Mathlib.Data.List.Dedup
import MintBot.Library.Fallible
import MintBot.Store.Admission

/-!
# What the coordinator accepts as facts

The checks that the coordinator makes before it records anything: on the result
of an execution, on a reconciliation update, and on the state of a run.  Each
check is followed by the conditions under which it passes.
-/

namespace MintBot

open Fallible

/-- The execution that admission prepared for a wallet. -/
def byWallet (prepared : List PreparedExecution) (wallet : String) : Option ExecutionId :=
  (prepared.reverse.find? fun item => toLowerCase item.wallet = toLowerCase wallet).map
    PreparedExecution.executionId

/-- The prepared execution of the wallet whose attempts name an execution. -/
def oldToNew (prepared : List PreparedExecution) (attempts : List AttemptRecord)
    (id : ExecutionId) : Option ExecutionId :=
  (attempts.reverse.find? fun attempt => attempt.executionId = id).bind
    fun attempt => byWallet prepared attempt.wallet

/-- `rebindExecutionResult`: give the facts of an engine result the executions
that admission prepared for their wallets. -/
def rebindExecutionResult (result : ExecutionResult) (prepared : List PreparedExecution) :
    Except Error ExecutionResult :=
  if prepared = [] then .ok result
  else do
    let attempts ← result.attempts.mapM fun attempt => do
      let executionId ← require (byWallet prepared attempt.wallet) "UNADMITTED_EXECUTION_WALLET"
      return { attempt with executionId := executionId }
    let receipts ← result.receipts.mapM fun receipt => do
      let executionId ← require (oldToNew prepared result.attempts receipt.executionId)
        "UNADMITTED_RECEIPT_EXECUTION"
      return { receipt with executionId := executionId }
    let executionIds := result.executionIds.map fun id =>
      (oldToNew prepared result.attempts id).getD id
    refuse (∃ id ∈ executionIds, ∀ item ∈ prepared, item.executionId ≠ id)
      "UNADMITTED_EXECUTION_ID"
    return { result with executionIds := executionIds, attempts := attempts, receipts := receipts }

/-- A result that already names the prepared executions is left as it is. -/
theorem rebindExecutionResult_self {result : ExecutionResult} {prepared : List PreparedExecution}
    (ofWallet : ∀ attempt ∈ result.attempts,
      byWallet prepared attempt.wallet = some attempt.executionId)
    (attempted : ∀ receipt ∈ result.receipts,
      ∃ attempt ∈ result.attempts, attempt.executionId = receipt.executionId)
    (admitted : ∀ id ∈ result.executionIds, ∃ item ∈ prepared, item.executionId = id) :
    rebindExecutionResult result prepared = .ok result := by
  by_cases empty : prepared = []
  · rw [rebindExecutionResult, if_pos empty]
  have found : ∀ id attempt, result.attempts.reverse.find? (fun attempt => attempt.executionId = id) =
      some attempt → oldToNew prepared result.attempts id = some id := by
    intro id attempt found
    have named : attempt.executionId = id := by simpa using List.find?_some found
    have member := List.mem_reverse.mp (List.mem_of_find?_eq_some found)
    rw [oldToNew, found, Option.bind_some, ofWallet attempt member, named]
  have attempts : (result.attempts.mapM fun attempt => do
      let executionId ← require (byWallet prepared attempt.wallet) "UNADMITTED_EXECUTION_WALLET"
      return { attempt with executionId := executionId }) = .ok result.attempts := by
    rw [mapM_eq_ok, List.forall₂_same]
    intro attempt member
    rw [ofWallet attempt member]
    rfl
  have receipts : (result.receipts.mapM fun receipt => do
      let executionId ← require (oldToNew prepared result.attempts receipt.executionId)
        "UNADMITTED_RECEIPT_EXECUTION"
      return { receipt with executionId := executionId }) = .ok result.receipts := by
    rw [mapM_eq_ok, List.forall₂_same]
    intro receipt member
    obtain ⟨attempt, attemptMember, named⟩ := attempted receipt member
    cases search : result.attempts.reverse.find? fun attempt =>
        attempt.executionId = receipt.executionId with
    | none => exact absurd named (by simpa using List.find?_eq_none.mp search attempt (by simpa))
    | some other =>
        rw [found receipt.executionId other search]
        rfl
  have executionIds : (result.executionIds.map fun id =>
      (oldToNew prepared result.attempts id).getD id) = result.executionIds := by
    rw [List.map_id'']
    intro id
    cases search : result.attempts.reverse.find? fun attempt => attempt.executionId = id with
    | none => rw [oldToNew, search, Option.bind_none, Option.getD_none]
    | some other => rw [found id other search, Option.getD_some]
  have allAdmitted : ¬ ∃ id ∈ result.executionIds, ∀ item ∈ prepared, item.executionId ≠ id := by
    rintro ⟨id, member, unknown⟩
    obtain ⟨item, known, named⟩ := admitted id member
    exact unknown item known named
  rw [rebindExecutionResult, if_neg empty, attempts, bind_eq_ok]
  refine ⟨result.attempts, rfl, ?_⟩
  rw [receipts, bind_eq_ok]
  refine ⟨result.receipts, rfl, ?_⟩
  rw [executionIds, bind_eq_ok]
  exact ⟨⟨⟩, refuse_eq_ok.mpr allAdmitted, rfl⟩

/-! ## Facts of an execution -/

/-- A receipt that no chain accepts: its state is no receipt state, it is
pending where that is not allowed, or it lacks its block or its cost. -/
def ReceiptRecord.Invalid (chainId : ChainId) (allowUnfinalizedL2 : Bool)
    (receipt : ReceiptRecord) : Prop :=
  receipt.state ∉ [.pending, .confirmed, .reorged, .failed] ∨
    (receipt.state = .pending ∧ (allowUnfinalizedL2 = false ∨ chainId = .ethereum)) ∨
    receipt.blockNumber = none ∨ receipt.blockHash.getD "" = "" ∨
    ∀ amount ∈ receipt.actualSpendWei, amount < 0

instance (chainId : ChainId) (allowUnfinalizedL2 : Bool) (receipt : ReceiptRecord) :
    Decidable (receipt.Invalid chainId allowUnfinalizedL2) := by
  unfold ReceiptRecord.Invalid
  infer_instance

/-- `assertEngineFacts`. -/
def assertEngineFacts (runId : RunId) (chainId : ChainId) (executionIds : List ExecutionId)
    (attempts : List AttemptRecord) (receipts : List ReceiptRecord)
    (allowUnfinalizedL2 : Bool) : Except Error Unit := do
  refuse (¬ executionIds.Nodup) "DUPLICATE_EXECUTION_ID"
  refuse ((∃ item ∈ attempts, item.runId ≠ runId ∨ item.executionId ∉ executionIds) ∨
      ∃ item ∈ receipts, item.runId ≠ runId ∨ item.executionId ∉ executionIds)
    "INVALID_ENGINE_EXECUTION_FACTS"
  refuse (¬ (attempts.map AttemptRecord.id).Nodup ∨ ¬ (receipts.map ReceiptRecord.id).Nodup)
    "DUPLICATE_ENGINE_FACT_ID"
  refuse (∃ receipt ∈ receipts, receipt.Invalid chainId allowUnfinalizedL2)
    "INVALID_RECEIPT_FACT"
  refuse (chainId ≠ .ethereum ∧ allowUnfinalizedL2 = false ∧
      ∃ receipt ∈ receipts, receipt.finalityStage ≠ some .ethereumFinal)
    "L2_FINALITY_REQUIRED"
  refuse (chainId = .robinhood ∧ ∃ receipt ∈ receipts,
      receipt.finalityStage = some .ethereumFinal ∧ receipt.robinhoodFinality ≠ some .final)
    "ROBINHOOD_FINALITY_REQUIRED"

/-- The facts that `assertEngineFacts` lets through. -/
structure EngineFacts (runId : RunId) (chainId : ChainId) (executionIds : List ExecutionId)
    (attempts : List AttemptRecord) (receipts : List ReceiptRecord)
    (allowUnfinalizedL2 : Bool) : Prop where
  distinctExecutions : executionIds.Nodup
  attemptsOfRun : ∀ item ∈ attempts, item.runId = runId ∧ item.executionId ∈ executionIds
  receiptsOfRun : ∀ item ∈ receipts, item.runId = runId ∧ item.executionId ∈ executionIds
  distinctAttempts : (attempts.map AttemptRecord.id).Nodup
  distinctReceipts : (receipts.map ReceiptRecord.id).Nodup
  validReceipts : ∀ receipt ∈ receipts, ¬ receipt.Invalid chainId allowUnfinalizedL2
  finalReceipts : chainId ≠ .ethereum → allowUnfinalizedL2 = false →
    ∀ receipt ∈ receipts, receipt.finalityStage = some .ethereumFinal
  robinhoodFinality : chainId = .robinhood → ∀ receipt ∈ receipts,
    receipt.finalityStage = some .ethereumFinal → receipt.robinhoodFinality = some .final

theorem assertEngineFacts_eq_ok {runId : RunId} {chainId : ChainId}
    {executionIds : List ExecutionId} {attempts : List AttemptRecord}
    {receipts : List ReceiptRecord} {allowUnfinalizedL2 : Bool} :
    assertEngineFacts runId chainId executionIds attempts receipts allowUnfinalizedL2 = .ok () ↔
      EngineFacts runId chainId executionIds attempts receipts allowUnfinalizedL2 := by
  simp only [assertEngineFacts, bind_eq_ok, refuse_eq_ok, not_or, not_exists, not_and,
    Decidable.not_not]
  constructor
  · rintro ⟨⟨⟩, executions, ⟨⟩, ⟨ofAttempts, ofReceipts⟩, ⟨⟩, ⟨attemptIds, receiptIds⟩, ⟨⟩, valid,
      ⟨⟩, final, robinhood⟩
    exact ⟨executions, ofAttempts, ofReceipts, attemptIds, receiptIds, valid, final, robinhood⟩
  · rintro ⟨executions, ofAttempts, ofReceipts, attemptIds, receiptIds, valid, final, robinhood⟩
    exact ⟨⟨⟩, executions, ⟨⟩, ⟨ofAttempts, ofReceipts⟩, ⟨⟩, ⟨attemptIds, receiptIds⟩, ⟨⟩, valid,
      ⟨⟩, final, robinhood⟩

/-! ## Facts of a reconciliation -/

/-- Executions that the stored attempts of a run belong to. -/
def expectedExecutions (existingAttempts : List AttemptRecord) : List ExecutionId :=
  (existingAttempts.map AttemptRecord.executionId).dedup

/-- `assertReconciliationCoherence`. -/
def assertReconciliationCoherence (runId : RunId) (chainId : ChainId)
    (result : ReconciliationResult) (existingAttempts attempts : List AttemptRecord)
    (receipts : List ReceiptRecord) : Except Error Unit := do
  let expected := expectedExecutions existingAttempts
  onlyIf (result ∈ [.confirmed, .final, .reorged]) do
    refuse (expected = []) "TERMINAL_RECONCILIATION_FACTS_REQUIRED"
    refuse (∃ id ∈ expected, ∀ receipt ∈ receipts, receipt.executionId ≠ id)
      "INCOMPLETE_TERMINAL_RECEIPTS"
  refuse (result = .final ∧ (chainId = .ethereum ∨ ∃ receipt ∈ receipts,
      receipt.state ≠ .confirmed ∨ receipt.finalityStage ≠ some .ethereumFinal ∨
        (chainId = .robinhood ∧ receipt.robinhoodFinality ≠ some .final)))
    "INVALID_FINALITY_COHERENCE"
  refuse (result = .confirmed ∧
      (chainId ≠ .ethereum ∨ ∃ receipt ∈ receipts, receipt.state ≠ .confirmed))
    "INVALID_FINALITY_COHERENCE"
  refuse (result = .reorged ∧ ∃ receipt ∈ receipts, receipt.state ≠ .reorged)
    "INVALID_REORG_COHERENCE"
  refuse (result = .failed ∧ attempts = [] ∧ receipts = [])
    "FAILED_RECONCILIATION_FACTS_REQUIRED"
  refuse (∃ item ∈ attempts, item.runId ≠ runId) "INVALID_ENGINE_EXECUTION_FACTS"

/-- The facts that `assertReconciliationCoherence` lets through. -/
structure ReconciliationCoherence (runId : RunId) (chainId : ChainId)
    (result : ReconciliationResult) (existingAttempts attempts : List AttemptRecord)
    (receipts : List ReceiptRecord) : Prop where
  complete : result = .confirmed ∨ result = .final ∨ result = .reorged →
    existingAttempts ≠ [] ∧ ∀ attempt ∈ existingAttempts,
      ∃ receipt ∈ receipts, receipt.executionId = attempt.executionId
  final : result = .final → chainId ≠ .ethereum ∧ ∀ receipt ∈ receipts,
    receipt.state = .confirmed ∧ receipt.finalityStage = some .ethereumFinal ∧
      (chainId = .robinhood → receipt.robinhoodFinality = some .final)
  confirmed : result = .confirmed →
    chainId = .ethereum ∧ ∀ receipt ∈ receipts, receipt.state = .confirmed
  reorged : result = .reorged → ∀ receipt ∈ receipts, receipt.state = .reorged
  failed : result = .failed → attempts = [] → receipts ≠ []
  attemptsOfRun : ∀ item ∈ attempts, item.runId = runId

theorem expectedExecutions_eq_nil {attempts : List AttemptRecord} :
    expectedExecutions attempts = [] ↔ attempts = [] := by
  cases attempts with
  | nil => simp [expectedExecutions]
  | cons attempt rest =>
      have member : attempt.executionId ∈ expectedExecutions (attempt :: rest) := by
        simp [expectedExecutions]
      simp [List.ne_nil_of_mem member]

theorem mem_expectedExecutions {attempts : List AttemptRecord} {id : ExecutionId} :
    id ∈ expectedExecutions attempts ↔ ∃ attempt ∈ attempts, attempt.executionId = id := by
  simp [expectedExecutions]

theorem assertReconciliationCoherence_eq_ok {runId : RunId} {chainId : ChainId}
    {result : ReconciliationResult} {existingAttempts attempts : List AttemptRecord}
    {receipts : List ReceiptRecord} :
    assertReconciliationCoherence runId chainId result existingAttempts attempts receipts =
        .ok () ↔
      ReconciliationCoherence runId chainId result existingAttempts attempts receipts := by
  simp only [assertReconciliationCoherence, bind_eq_ok, onlyIf_eq_ok, refuse_eq_ok,
    expectedExecutions_eq_nil, mem_expectedExecutions, List.mem_cons, List.not_mem_nil, or_false]
  constructor
  · rintro ⟨⟨⟩, complete, ⟨⟩, final, ⟨⟩, confirmed, ⟨⟩, reorged, ⟨⟩, failed, ofRun⟩
    constructor
    · intro terminal
      obtain ⟨⟨⟩, some, all⟩ := complete terminal
      refine ⟨some, fun attempt member => ?_⟩
      by_contra missing
      push Not at missing
      exact all ⟨attempt.executionId, ⟨attempt, member, rfl⟩, missing⟩
    all_goals grind
  · rintro ⟨complete, final, confirmed, reorged, failed, ofRun⟩
    refine ⟨⟨⟩, fun terminal => ⟨⟨⟩, (complete terminal).1, ?_⟩, ⟨⟩, ?_, ⟨⟩, ?_, ⟨⟩, ?_, ⟨⟩, ?_, ?_⟩
    all_goals grind

/-! ## Settlement and run states -/

/-- `receiptAuthorizesSettlement`. -/
def receiptAuthorizesSettlement (chainId : ChainId) (receipt : ReceiptRecord) : Prop :=
  (receipt.state = .confirmed ∨ receipt.state = .failed) ∧
    (chainId = .ethereum ∨
      (receipt.finalityStage = some .ethereumFinal ∧
        (chainId = .robinhood → receipt.robinhoodFinality = some .final)))

instance (chainId : ChainId) (receipt : ReceiptRecord) :
    Decidable (receiptAuthorizesSettlement chainId receipt) := by
  unfold receiptAuthorizesSettlement
  infer_instance

/-- States as they stand in error messages. -/
def CampaignState.text : CampaignState → String
  | .draft => "Draft"
  | .validating => "Validating"
  | .ready => "Ready"
  | .armed => "Armed"
  | .active => "Active"
  | .paused => "Paused"
  | .completed => "Completed"
  | .failed => "Failed"
  | .aborted => "Aborted"
  | .cancelled => "Cancelled"

/-- States a run may move to from another one. -/
def allowedRunTransitions : CampaignState → List CampaignState
  | .armed => [.active, .aborted, .failed]
  | .active => [.completed, .failed, .aborted]
  | .completed => [.failed]
  | _ => []

/-- `transition`: the run in its next state. -/
def transition (run : RunRecord) (next : CampaignState) : Except Error RunRecord := do
  refuse (run.state ≠ next ∧ next ∉ allowedRunTransitions run.state)
    s!"INVALID_RUN_TRANSITION:{run.state.text}->{next.text}"
  return { run with state := next }

theorem transition_eq_ok {run next : RunRecord} {state : CampaignState} :
    transition run state = .ok next ↔
      (run.state = state ∨ state ∈ allowedRunTransitions run.state) ∧
        { run with state := state } = next := by
  simp only [transition, bind_eq_ok, refuse_eq_ok, pure_eq_ok, not_and_or, Decidable.not_not]
  constructor
  · rintro ⟨⟨⟩, allowed, rfl⟩
    exact ⟨allowed, rfl⟩
  · rintro ⟨allowed, rfl⟩
    exact ⟨⟨⟩, allowed, rfl⟩

end MintBot
