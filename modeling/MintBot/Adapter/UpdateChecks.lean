import MintBot.Adapter.Reconcile
import MintBot.Coordinator.Facts

/-!
# Checks on a reconciliation update

What the coordinator asks of an update before a reconcile pass records it, and
the part of it that an update about stored attempts does not meet by
construction.
-/

namespace MintBot

open Fallible

/-- The executions that an update is about. -/
def reconciledExecutions (update : ReconciliationUpdate) : List ExecutionId :=
  (update.attempts.map AttemptRecord.executionId ++
    update.receipts.map ReceiptRecord.executionId).dedup

/-- The checks that a reconcile pass makes on an update. -/
def UpdateAccepted (run : RunRecord) (chainId : ChainId) (existingAttempts : List AttemptRecord)
    (update : ReconciliationUpdate) : Prop :=
  assertEngineFacts run.id chainId (reconciledExecutions update) update.attempts update.receipts
      true = .ok () ∧
    assertReconciliationCoherence run.id chainId update.result existingAttempts update.attempts
      update.receipts = .ok ()

/-- What tables and id generation promise of the facts that are stored for a
run. -/
structure StoredFacts (state : BackendState) (run : RunRecord) (intent : IntentRecord) : Prop where
  intentOfRun : state.intents.find? (fun candidate => candidate.id = run.intentId) = some intent
  valueNonneg : 0 ≤ intent.campaignSnapshot.mintPriceWei * intent.campaignSnapshot.quantity
  attemptIds : (state.attempts.map AttemptRecord.id).Nodup
  receiptIds : ∀ receipt ∈ state.receipts, receipt.id.execution = some receipt.executionId
  receiptsOfRun : ∀ receipt ∈ state.receipts, ∀ attempt ∈ state.attempts,
    receipt.executionId = attempt.executionId → receipt.runId = attempt.runId
  receiptStates : ∀ receipt ∈ state.receipts,
    receipt.state ∈ [.pending, .confirmed, .reorged, .failed] ∧ receipt.blockNumber ≠ none

/-! ## Updates about stored attempts -/

/-- The update is about attempts of the run under their stored ids. -/
structure UpdateOf (run : RunRecord) (update : ReconciliationUpdate) : Prop where
  attemptIds : (update.attempts.map AttemptRecord.id).Nodup
  attemptsOfRun : ∀ attempt ∈ update.attempts, attempt.runId = run.id
  receiptsOfRun : ∀ receipt ∈ update.receipts, receipt.runId = run.id

/-- The checks of an update that do not hold by construction. -/
structure UpdateChecks (chainId : ChainId) (existingAttempts : List AttemptRecord)
    (update : ReconciliationUpdate) : Prop where
  distinct : (update.receipts.map ReceiptRecord.id).Nodup
  valid : ∀ receipt ∈ update.receipts, ¬ receipt.Invalid chainId true
  robinhood : chainId = .robinhood → ∀ receipt ∈ update.receipts,
    receipt.finalityStage = some .ethereumFinal → receipt.robinhoodFinality = some .final
  complete : update.result = .confirmed ∨ update.result = .final ∨ update.result = .reorged →
    existingAttempts ≠ [] ∧ ∀ attempt ∈ existingAttempts,
      ∃ receipt ∈ update.receipts, receipt.executionId = attempt.executionId
  final : update.result = .final → chainId ≠ .ethereum ∧ ∀ receipt ∈ update.receipts,
    receipt.state = .confirmed ∧ receipt.finalityStage = some .ethereumFinal ∧
      (chainId = .robinhood → receipt.robinhoodFinality = some .final)
  confirmed : update.result = .confirmed →
    chainId = .ethereum ∧ ∀ receipt ∈ update.receipts, receipt.state = .confirmed
  reorged : update.result = .reorged → ∀ receipt ∈ update.receipts, receipt.state = .reorged
  failed : update.result = .failed → update.attempts = [] → update.receipts ≠ []

theorem updateAccepted_iff {run : RunRecord} {chainId : ChainId}
    {existingAttempts : List AttemptRecord} {update : ReconciliationUpdate}
    (ofRun : UpdateOf run update) :
    UpdateAccepted run chainId existingAttempts update ↔
      UpdateChecks chainId existingAttempts update := by
  rw [UpdateAccepted, assertEngineFacts_eq_ok, assertReconciliationCoherence_eq_ok]
  constructor
  · rintro ⟨facts, coherence⟩
    exact ⟨facts.distinctReceipts, facts.validReceipts, facts.robinhoodFinality,
      coherence.complete, coherence.final, coherence.confirmed, coherence.reorged,
      coherence.failed⟩
  · intro checks
    constructor
    · constructor
      · exact List.nodup_dedup _
      · intro attempt member
        refine ⟨ofRun.attemptsOfRun attempt member, ?_⟩
        exact List.mem_dedup.mpr (List.mem_append_left _ (List.mem_map_of_mem member))
      · intro receipt member
        refine ⟨ofRun.receiptsOfRun receipt member, ?_⟩
        exact List.mem_dedup.mpr (List.mem_append_right _ (List.mem_map_of_mem member))
      · exact ofRun.attemptIds
      · exact checks.distinct
      · exact checks.valid
      · intro _ contradiction
        cases contradiction
      · exact checks.robinhood
    · exact ⟨checks.complete, checks.final, checks.confirmed, checks.reorged, checks.failed,
        ofRun.attemptsOfRun⟩

/-- An update without receipts whose result is not terminal passes. -/
theorem updateChecks_unknown {chainId : ChainId} {existingAttempts : List AttemptRecord}
    {update : ReconciliationUpdate} (result : update.result = .unknown)
    (receipts : update.receipts = []) : UpdateChecks chainId existingAttempts update := by
  constructor <;> simp [result, receipts]

/-- A terminal result without receipts never passes when attempts are stored. -/
theorem not_updateChecks_reorged {chainId : ChainId} {existingAttempts : List AttemptRecord}
    {update : ReconciliationUpdate} (result : update.result = .reorged)
    (receipts : update.receipts = []) : ¬ UpdateChecks chainId existingAttempts update := by
  intro checks
  obtain ⟨nonempty, complete⟩ := checks.complete (Or.inr (Or.inr result))
  obtain ⟨attempt, member⟩ := List.exists_mem_of_ne_nil _ nonempty
  obtain ⟨receipt, receiptMember, -⟩ := complete attempt member
  simp [receipts] at receiptMember

/-- Receipts of distinct executions have distinct ids when each id names its
execution. -/
theorem receiptIds_nodup {receipts : List ReceiptRecord}
    (named : ∀ receipt ∈ receipts, receipt.id.execution = some receipt.executionId)
    (executions : (receipts.map ReceiptRecord.executionId).Nodup) :
    (receipts.map ReceiptRecord.id).Nodup := by
  refine List.Nodup.of_map ReceiptId.execution ?_
  have owners : (receipts.map ReceiptRecord.id).map ReceiptId.execution =
      (receipts.map ReceiptRecord.executionId).map some := by
    rw [List.map_map, List.map_map]
    exact List.map_congr_left named
  rw [owners]
  exact executions.map fun _ _ => Option.some.inj

theorem observedSpend_nonneg {campaign : Campaign}
    (valueNonneg : 0 ≤ campaign.mintPriceWei * campaign.quantity) (succeeded : Bool)
    (gasUsed effectiveGasPrice : Nat) :
    0 ≤ observedSpend campaign succeeded gasUsed effectiveGasPrice := by
  have gas : (0 : Int) ≤ Int.ofNat (gasUsed * effectiveGasPrice) := Int.natCast_nonneg _
  unfold observedSpend
  cases succeeded with
  | false => simpa using gas
  | true => simpa using Int.add_nonneg valueNonneg gas

end MintBot
