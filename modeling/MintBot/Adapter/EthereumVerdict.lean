import MintBot.Adapter.EthereumReconcile

/-!
# The verdict of the Ethereum branch

What an update of the Ethereum branch says is compared with what the chain returned during the
same call.  A stored receipt of the same block is reported again as it stands, and executions
without a receipt have no part in the verdict.
-/

namespace MintBot

/-- A record carries the status and the cost of a receipt. -/
structure FollowsReceipt (campaign : Campaign) (receipt : ChainReceipt)
    (recorded : ReceiptRecord) : Prop where
  state : recorded.state = finalState receipt.succeeded
  spend : recorded.actualSpendWei =
    some (observedSpend campaign receipt.succeeded receipt.gasUsed receipt.effectiveGasPrice)

/-- The chain returns a receipt with this status for an attempt of the execution. -/
def ReturnedWith (answer : AttemptRecord → Option ChainReceipt) (attempts : List AttemptRecord)
    (execution : ExecutionId) (succeeded : Bool) : Prop :=
  ∃ attempt ∈ attempts, attempt.executionId = execution ∧
    ∃ receipt, ethereumAnswer answer attempt = some receipt ∧ receipt.succeeded = succeeded

/-- An update says what the chain returned: a failure needs a reverted receipt, a confirmation a
successful one for every submitted execution, and every receipt is the observed one. -/
structure FollowsChain (campaign : Campaign) (answer : AttemptRecord → Option ChainReceipt)
    (attempts : List AttemptRecord) (update : ReconciliationUpdate) : Prop where
  failed : update.result = .failed → ∃ execution, ReturnedWith answer attempts execution false
  confirmed : update.result = .confirmed → ∀ attempt ∈ attempts, attempt.Submitted →
    ReturnedWith answer attempts attempt.executionId true
  carried : ∀ recorded ∈ update.receipts, ∃ attempt receipt,
    FirstAnswer answer attempts attempt receipt ∧ recorded.executionId = attempt.executionId ∧
      FollowsReceipt campaign receipt recorded

/-- The stored receipts that are used again agree with the chain, and when every answered
execution succeeded, every submitted execution is answered. -/
structure AgreesWithStored (campaign : Campaign) (stored : List ReceiptRecord)
    (answer : AttemptRecord → Option ChainReceipt) (attempts : List AttemptRecord) : Prop where
  reused : ∀ attempt receipt existing, FirstAnswer answer attempts attempt receipt →
    reusedReceipt stored attempt receipt = some existing →
      FollowsReceipt campaign receipt existing
  answered : (∃ attempt receipt, FirstAnswer answer attempts attempt receipt) →
    (∀ attempt receipt, FirstAnswer answer attempts attempt receipt → receipt.succeeded = true) →
      ∀ attempt ∈ attempts, attempt.Submitted →
        ∃ other ∈ attempts, other.executionId = attempt.executionId ∧
          (ethereumAnswer answer other).isSome

section EthereumVerdict

variable {stored : List ReceiptRecord} {run : RunRecord} {campaign : Campaign}
  {answer : AttemptRecord → Option ChainReceipt} {now : Time} {attempts : List AttemptRecord}

/-! ## First answers -/

theorem FirstAnswer.unique {attempt other : AttemptRecord} {receipt found : ChainReceipt}
    (first : FirstAnswer answer attempts attempt receipt)
    (second : FirstAnswer answer attempts other found)
    (same : attempt.executionId = other.executionId) : attempt = other ∧ receipt = found := by
  have searched := first.1
  rw [same] at searched
  have equal : attempt = other := Option.some.inj (searched.symm.trans second.1)
  subst equal
  exact ⟨rfl, Option.some.inj (first.2.symm.trans second.2)⟩

theorem FirstAnswer.returned {attempt : AttemptRecord} {receipt : ChainReceipt}
    (first : FirstAnswer answer attempts attempt receipt) :
    ReturnedWith answer attempts attempt.executionId receipt.succeeded :=
  ⟨attempt, List.mem_of_find?_eq_some first.1, rfl, receipt, first.2, rfl⟩

/-- An execution with an answer has a first one. -/
theorem exists_firstAnswer {attempt : AttemptRecord} (member : attempt ∈ attempts)
    (answered : (ethereumAnswer answer attempt).isSome) :
    ∃ other receipt, FirstAnswer answer attempts other receipt ∧
      other.executionId = attempt.executionId := by
  have found : (attempts.find? fun other => decide (other.executionId = attempt.executionId ∧
      (ethereumAnswer answer other).isSome)).isSome := by
    rw [List.find?_isSome]
    exact ⟨attempt, member, by simp [answered]⟩
  obtain ⟨other, searched⟩ := Option.isSome_iff_exists.mp found
  have matched := List.find?_some searched
  simp only [decide_eq_true_eq] at matched
  obtain ⟨receipt, received⟩ := Option.isSome_iff_exists.mp matched.2
  refine ⟨other, receipt, ⟨?_, received⟩, matched.1⟩
  rw [matched.1]
  exact searched

/-! ## What is reported for a first answer -/

/-- A receipt is reported as observed exactly when the stored one that is used again agrees. -/
theorem ethereumReceipt_follows_iff {attempt : AttemptRecord} {receipt : ChainReceipt} :
    FollowsReceipt campaign receipt (ethereumReceipt stored run campaign now attempt receipt) ↔
      ∀ existing, reusedReceipt stored attempt receipt = some existing →
        FollowsReceipt campaign receipt existing := by
  unfold ethereumReceipt
  cases reusedReceipt stored attempt receipt with
  | none => exact ⟨fun _ _ absent => (nomatch absent), fun _ => ⟨rfl, rfl⟩⟩
  | some existing => simp

theorem FollowsReceipt.confirmed_iff {receipt : ChainReceipt} {recorded : ReceiptRecord}
    (follows : FollowsReceipt campaign receipt recorded) :
    recorded.state = .confirmed ↔ receipt.succeeded = true := by
  rw [follows.state]
  cases receipt.succeeded <;> simp [finalState]

/-- Every reported receipt is the observed one exactly when the reused ones agree. -/
theorem carried_iff :
    (∀ recorded ∈ (reconcileEthereum stored run campaign answer now attempts).receipts,
      ∃ attempt receipt, FirstAnswer answer attempts attempt receipt ∧
        recorded.executionId = attempt.executionId ∧ FollowsReceipt campaign receipt recorded) ↔
      ∀ attempt receipt existing, FirstAnswer answer attempts attempt receipt →
        reusedReceipt stored attempt receipt = some existing →
          FollowsReceipt campaign receipt existing := by
  constructor
  · intro carried attempt receipt existing first reused
    obtain ⟨other, found, second, same, follows⟩ :=
      carried _ (mem_reconcileEthereum.mpr ⟨attempt, receipt, first, rfl⟩)
    rw [ethereumReceipt_execution] at same
    obtain ⟨rfl, rfl⟩ := first.unique second same
    exact ethereumReceipt_follows_iff.mp follows existing reused
  · intro agree recorded member
    obtain ⟨attempt, receipt, first, rfl⟩ := mem_reconcileEthereum.mp member
    exact ⟨attempt, receipt, first, ethereumReceipt_execution attempt receipt,
      ethereumReceipt_follows_iff.mpr fun existing => agree attempt receipt existing first⟩

/-- With receipts as observed the verdict is a confirmation exactly when every answered
execution succeeded. -/
theorem reconcileEthereum_confirmed_iff
    (agree : ∀ attempt receipt existing, FirstAnswer answer attempts attempt receipt →
      reusedReceipt stored attempt receipt = some existing →
        FollowsReceipt campaign receipt existing) :
    (reconcileEthereum stored run campaign answer now attempts).result = .confirmed ↔
      (∃ attempt receipt, FirstAnswer answer attempts attempt receipt) ∧
        ∀ attempt receipt, FirstAnswer answer attempts attempt receipt →
          receipt.succeeded = true := by
  have follows : ∀ {attempt receipt}, FirstAnswer answer attempts attempt receipt →
      FollowsReceipt campaign receipt
        (ethereumReceipt stored run campaign now attempt receipt) := fun first =>
    ethereumReceipt_follows_iff.mpr fun existing => agree _ _ existing first
  refine ethereumResult_confirmed_iff.trans (and_congr ?_ ?_)
  · constructor
    · intro some
      obtain ⟨recorded, member⟩ := List.exists_mem_of_ne_nil _ some
      obtain ⟨attempt, receipt, first, -⟩ := mem_reconcileEthereum.mp member
      exact ⟨attempt, receipt, first⟩
    · rintro ⟨attempt, receipt, first⟩
      exact List.ne_nil_of_mem (mem_reconcileEthereum.mpr ⟨attempt, receipt, first, rfl⟩)
  · constructor
    · intro all attempt receipt first
      exact (follows first).confirmed_iff.mp
        (all _ (mem_reconcileEthereum.mpr ⟨attempt, receipt, first, rfl⟩))
    · intro succeeded recorded member
      obtain ⟨attempt, receipt, first, rfl⟩ := mem_reconcileEthereum.mp member
      exact (follows first).confirmed_iff.mpr (succeeded attempt receipt first)

/-! ## The verdict -/

/-- The Ethereum branch follows the chain exactly when the stored receipts that it uses again
do, and no submitted execution is unanswered beside successful ones only. -/
theorem reconcileEthereum_follows_iff :
    FollowsChain campaign answer attempts
        (reconcileEthereum stored run campaign answer now attempts) ↔
      AgreesWithStored campaign stored answer attempts := by
  constructor
  · intro follows
    have agree := carried_iff.mp follows.carried
    refine ⟨agree, ?_⟩
    intro some succeeded attempt member submitted
    obtain ⟨other, otherMember, same, receipt, answered, -⟩ := follows.confirmed
      ((reconcileEthereum_confirmed_iff agree).mpr ⟨some, succeeded⟩) attempt member submitted
    exact ⟨other, otherMember, same, by simp [answered]⟩
  · intro agrees
    refine ⟨?_, ?_, carried_iff.mpr agrees.reused⟩
    · intro failed
      obtain ⟨recorded, member, unconfirmed⟩ := ethereumResult_failed_iff.mp failed
      obtain ⟨attempt, receipt, first, rfl⟩ := mem_reconcileEthereum.mp member
      have follows : FollowsReceipt campaign receipt
          (ethereumReceipt stored run campaign now attempt receipt) :=
        ethereumReceipt_follows_iff.mpr fun existing => agrees.reused attempt receipt existing first
      have reverted : receipt.succeeded = false := by
        rw [← Bool.not_eq_true]
        exact fun succeeded => unconfirmed (follows.confirmed_iff.mpr succeeded)
      exact ⟨attempt.executionId, reverted ▸ first.returned⟩
    · intro confirmed attempt member submitted
      obtain ⟨some, succeeded⟩ := (reconcileEthereum_confirmed_iff agrees.reused).mp confirmed
      obtain ⟨other, otherMember, same, answered⟩ :=
        agrees.answered some succeeded attempt member submitted
      obtain ⟨earliest, receipt, first, sameExecution⟩ := exists_firstAnswer otherMember answered
      rw [← same, ← sameExecution, ← succeeded earliest receipt first]
      exact first.returned

end EthereumVerdict

/-! ## A block that is canonical again -/

def verdictCampaign : Campaign where
  id := "campaign"
  chainId := .ethereum
  quantity := 1
  mintPriceWei := 100
  broadcastMode := none
  spendPolicy := { maxRunWei := 1000, dailyCapWei := 1000, gasCeilingWei := 500 }
  feePolicy :=
    { kind := .paid, configuredPriorityFeeWei := 1, l2ExecutionGasBudgetWei := none
      l1DataGasBudgetWei := none, totalFeeBudgetWei := none, freeTotalSpendCapWei := none }

def verdictRun : RunRecord where
  id := "run"
  intentId := "intent"
  campaignId := "campaign"
  mode := .live
  requestDigest := .digest "run"
  state := .active

def verdictAttempt (wallet : String) : AttemptRecord where
  id := .signed ⟨"run", wallet⟩
  executionId := ⟨"run", wallet⟩
  runId := "run"
  wallet := wallet
  nonce := some 0
  hash := some wallet
  replacementOfId := none
  state := .submitted
  robinhoodFinality := none
  createdAt := 0

/-- The receipt of a mint that succeeded. -/
def minedReceipt : ChainReceipt where
  succeeded := true
  blockNumber := 7
  blockHash := "0xb7"
  gasUsed := 10
  effectiveGasPrice := 2
  blockHashPresent := by decide

/-- The receipt of the same block, stored while the block was out of the chain. -/
def reorgedReceipt : ReceiptRecord where
  id := .reconciledReorged ⟨"run", "0xa1"⟩ "0xb7"
  executionId := ⟨"run", "0xa1"⟩
  runId := "run"
  transactionAttemptId := some (.signed ⟨"run", "0xa1"⟩)
  state := .reorged
  finalityStage := none
  robinhoodFinality := none
  blockNumber := some 7
  blockHash := some "0xb7"
  gasUsed := some 10
  effectiveGasPrice := some 2
  l1DataFeeWei := none
  operatorFeeWei := none
  actualSpendWei := some 0
  observedAt := 1

/-- The run of a mint that succeeded is called failed when its block was stored as reorged. -/
theorem reconcileEthereum_canonical_again :
    ¬ FollowsChain verdictCampaign (fun _ => some minedReceipt) [verdictAttempt "0xa1"]
      (reconcileEthereum [reorgedReceipt] verdictRun verdictCampaign (fun _ => some minedReceipt) 2
        [verdictAttempt "0xa1"]) := by
  intro follows
  obtain ⟨execution, attempt, -, -, receipt, answered, reverted⟩ := follows.failed (by decide)
  unfold ethereumAnswer at answered
  split at answered
  · obtain rfl := Option.some.inj answered
    exact absurd reverted (by decide)
  · cases answered

/-- One mined execution confirms a run of two. -/
example : (reconcileEthereum [] verdictRun verdictCampaign
    (fun attempt => if attempt.wallet = "0xa1" then some minedReceipt else none) 2
      [verdictAttempt "0xa1", verdictAttempt "0xa2"]).result = .confirmed := by
  decide

end MintBot
