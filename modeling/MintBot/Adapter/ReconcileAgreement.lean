import MintBot.Adapter.BaseReconcile
import MintBot.Adapter.EthereumReconcile
import MintBot.Adapter.RobinhoodReconcile
import MintBot.Store.Operation

/-!
# The reconcile adapter and the coordinator

A reconcile pass accepts an update when it passes the checks of the coordinator
against the stored attempts of the run.  Updates that report missing receipts
always do; the terminal results do not when a part of the fleet has no receipt,
and a stored receipt may be reused that is not acceptable a second time.
-/

namespace MintBot

/-- Chain answers whose update is accepted, by the chain of the campaign.  A run
without attempts or endpoints is reported as unknown. -/
def ReconcileCoherent (state : BackendState) (answers : ChainAnswers) (run : RunRecord)
    (intent : IntentRecord) : Prop :=
  let attempts := state.attempts.filter fun attempt => attempt.runId = run.id
  attempts ≠ [] → answers.endpointAvailable = true →
    match intent.campaignSnapshot.chainId with
    | .ethereum => EthereumCoherent state.receipts answers.ethereum attempts
    | .base => answers.fallbackAvailable = true → BaseCoherent answers.base attempts
    | .robinhood => RobinhoodCoherent answers attempts

/-- A reconcile pass accepts the update of a run exactly for coherent answers. -/
theorem reconcile_accepted_iff {state : BackendState} {run : RunRecord} {intent : IntentRecord}
    (stored : StoredFacts state run intent) (answers : ChainAnswers) (now : Time) :
    UpdateAccepted run intent.campaignSnapshot.chainId
        (state.attempts.filter fun attempt => attempt.runId = run.id)
        (reconcile state answers now run) ↔
      ReconcileCoherent state answers run intent := by
  let attempts := state.attempts.filter fun attempt => attempt.runId = run.id
  have ids : (attempts.map AttemptRecord.id).Nodup :=
    stored.attemptIds.sublist (List.filter_sublist.map AttemptRecord.id)
  have ofRun : ∀ attempt ∈ attempts, attempt.runId = run.id := by
    intro attempt member
    exact of_decide_eq_true (List.mem_filter.mp member).2
  have unknown : ∀ reason, UpdateAccepted run intent.campaignSnapshot.chainId attempts
      (unknownUpdate reason) := by
    intro reason
    rw [updateAccepted_iff (by constructor <;> simp [unknownUpdate])]
    exact updateChecks_unknown rfl rfl
  unfold reconcile ReconcileCoherent
  rw [stored.intentOfRun]
  dsimp only
  by_cases empty : attempts = []
  · simp only [attempts] at empty unknown
    rw [if_pos empty]
    exact ⟨fun _ some => absurd empty some, fun _ => unknown _⟩
  by_cases endpoint : answers.endpointAvailable = true
  swap
  · rw [if_neg empty, if_pos (by simpa using endpoint)]
    exact ⟨fun _ _ available => absurd available endpoint, fun _ => unknown _⟩
  rw [if_neg empty, if_neg (by simp [endpoint])]
  simp only [ne_eq, endpoint, forall_const]
  cases chain : intent.campaignSnapshot.chainId with
  | ethereum =>
      have receiptsOfRun : ∀ receipt ∈ state.receipts, ∀ attempt ∈ attempts,
          receipt.executionId = attempt.executionId → receipt.runId = attempt.runId :=
        fun receipt receiptMember attempt member =>
          stored.receiptsOfRun receipt receiptMember attempt (List.mem_filter.mp member).1
      rw [updateAccepted_iff (updateOf_ethereum ids ofRun receiptsOfRun),
        ethereum_accepted_iff stored.valueNonneg stored.receiptStates stored.receiptIds empty]
      exact ⟨fun coherent _ => coherent, fun coherent => coherent empty⟩
  | base =>
      by_cases fallback : answers.fallbackAvailable = true
      · rw [chain] at unknown
        dsimp only
        rw [if_neg (by simp [fallback]), updateAccepted_iff (updateOf_base ids ofRun),
          base_accepted_iff stored.valueNonneg empty]
        exact ⟨fun coherent _ _ => coherent, fun coherent => coherent empty fallback⟩
      · rw [chain] at unknown
        dsimp only
        rw [if_pos (by simpa using fallback)]
        exact ⟨fun _ _ available => absurd available fallback, fun _ => unknown _⟩
  | robinhood =>
      rw [updateAccepted_iff (updateOf_robinhood ids ofRun),
        robinhood_accepted_iff stored.valueNonneg empty]
      exact ⟨fun coherent _ => coherent, fun coherent => coherent empty⟩

/-- Facts read from the tables are stored facts: their rows have primary keys,
and receipt ids are made from execution ids. -/
theorem StoredFacts.of_snapshot {db : Db} {run : RunRecord} {intent : IntentRecord}
    (intentOfRun : db.readIntents.find? (fun candidate => candidate.id = run.intentId) =
      some intent)
    (valueNonneg : 0 ≤ intent.campaignSnapshot.mintPriceWei * intent.campaignSnapshot.quantity)
    (attemptIds : (db.attempts.map TransactionAttemptRow.id).Nodup)
    (receiptIds : ∀ row ∈ db.receipts, row.id.execution = some row.executionId) :
    StoredFacts (snapshot db) run intent := by
  constructor
  · exact intentOfRun
  · exact valueNonneg
  · exact attemptIds.sublist (readAttempts_ids_sublist db)
  · intro receipt member
    obtain ⟨row, rowMember, read⟩ := mem_readReceipts member
    rw [read.id, read.execution]
    exact receiptIds row rowMember
  · intro receipt receiptMember attempt attemptMember same
    obtain ⟨row, -, read⟩ := mem_readReceipts receiptMember
    obtain ⟨attemptRow, -, readAttempt⟩ := mem_readAttempts attemptMember
    have owners := read.run
    rw [← read.execution, same, readAttempt.execution, readAttempt.run] at owners
    exact (Option.some.inj owners).symm
  · intro receipt member
    obtain ⟨row, -, read⟩ := mem_readReceipts member
    rw [read.state, read.mined]
    refine ⟨?_, by simp⟩
    cases row.status <;> simp [receiptState]

/-! ## A partly mined fleet -/

/-- Two wallets of one run whose transactions were accepted. -/
def submittedPair : Db :=
  Machine.applyAll (StoreOp.step Sample.pairPolicy) (Sample.db .ethereum ["first"])
    [.admission 0 (Sample.input .ethereum "first" ["w", "v"]),
      .attempt 0 (Sample.attempt "first" "w"), .attempt 0 (Sample.attempt "first" "v")]

theorem block_named : "0xblock" ≠ "" := by
  decide

/-- Only the transaction of one wallet has a receipt. -/
def oneMined : ChainAnswers where
  endpointAvailable := true
  fallbackAvailable := true
  ethereum := fun attempt =>
    if attempt.wallet = "w" then
      some
        { succeeded := true
          blockNumber := 1
          blockHash := "0xblock"
          gasUsed := 1
          effectiveGasPrice := 1
          blockHashPresent := block_named }
    else none
  base := fun _ => .unavailable
  robinhoodReceipt := fun _ => none
  robinhoodFinality := fun _ => none

theorem reconcile_accepted_iff_sample :
    UpdateAccepted (Sample.run "first") .ethereum
        ((snapshot submittedPair).attempts.filter fun attempt =>
          attempt.runId = (Sample.run "first").id)
        (reconcile (snapshot submittedPair) oneMined 0 (Sample.run "first")) ↔
      ReconcileCoherent (snapshot submittedPair) oneMined (Sample.run "first")
        (Sample.input .ethereum "first" ["w", "v"]).intent := by
  have stored : StoredFacts (snapshot submittedPair) (Sample.run "first")
      (Sample.input .ethereum "first" ["w", "v"]).intent := by
    refine StoredFacts.of_snapshot ?_ ?_ ?_ ?_
    · decide +kernel
    · decide
    · decide +kernel
    · decide +kernel
  exact reconcile_accepted_iff stored oneMined 0

/-- A confirmed receipt of one wallet is refused while the other one has none. -/
theorem partly_mined_refused :
    ¬ UpdateAccepted (Sample.run "first") .ethereum
      ((snapshot submittedPair).attempts.filter fun attempt =>
        attempt.runId = (Sample.run "first").id)
      (reconcile (snapshot submittedPair) oneMined 0 (Sample.run "first")) := by
  rintro ⟨-, coherence⟩
  have refused : (assertReconciliationCoherence (Sample.run "first").id .ethereum
      (reconcile (snapshot submittedPair) oneMined 0 (Sample.run "first")).result
      ((snapshot submittedPair).attempts.filter fun attempt =>
        attempt.runId = (Sample.run "first").id)
      (reconcile (snapshot submittedPair) oneMined 0 (Sample.run "first")).attempts
      (reconcile (snapshot submittedPair) oneMined 0 (Sample.run "first")).receipts).toOption =
        none := by decide +kernel
  simp [coherence, Except.toOption] at refused

end MintBot
