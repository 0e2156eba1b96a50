import MintBot.Adapter.UpdateChecks

/-!
# The Ethereum branch and the coordinator

The Ethereum branch reports one receipt for each execution that has one, and
uses a stored receipt of the same block again.
-/

namespace MintBot

section Ethereum

variable {stored : List ReceiptRecord} {run : RunRecord} {campaign : Campaign}
  {answer : AttemptRecord → Option ChainReceipt} {now : Time}

/-- The first attempt of its execution with a receipt, and that receipt. -/
def FirstAnswer (answer : AttemptRecord → Option ChainReceipt) (attempts : List AttemptRecord)
    (attempt : AttemptRecord) (receipt : ChainReceipt) : Prop :=
  (attempts.find? fun other =>
      other.executionId = attempt.executionId ∧ (ethereumAnswer answer other).isSome) =
        some attempt ∧
    ethereumAnswer answer attempt = some receipt

theorem firstAnswer_cons_none {attempt other : AttemptRecord} {rest : List AttemptRecord}
    {receipt : ChainReceipt}
    (skip : ¬ (attempt.executionId = other.executionId ∧
      (ethereumAnswer answer attempt).isSome)) :
    FirstAnswer answer (attempt :: rest) other receipt ↔ FirstAnswer answer rest other receipt := by
  unfold FirstAnswer
  rw [List.find?_cons_of_neg (by simpa using skip)]

theorem firstAnswer_cons_some {attempt other : AttemptRecord} {rest : List AttemptRecord}
    {receipt found : ChainReceipt} (same : attempt.executionId = other.executionId)
    (answered : ethereumAnswer answer attempt = some found) :
    FirstAnswer answer (attempt :: rest) other receipt ↔ other = attempt ∧ receipt = found := by
  unfold FirstAnswer
  rw [List.find?_cons_of_pos (by simp [same, answered])]
  constructor
  · rintro ⟨equal, other_answered⟩
    obtain rfl := Option.some.inj equal
    exact ⟨rfl, Option.some.inj (other_answered.symm.trans answered)⟩
  · rintro ⟨rfl, rfl⟩
    exact ⟨rfl, answered⟩

theorem ethereumReceipt_execution (attempt : AttemptRecord) (receipt : ChainReceipt) :
    (ethereumReceipt stored run campaign now attempt receipt).executionId =
      attempt.executionId := by
  unfold ethereumReceipt
  cases reused : reusedReceipt stored attempt receipt with
  | none => rfl
  | some existing =>
      have matched := List.find?_some reused
      simp only [decide_eq_true_eq] at matched
      exact matched.1

theorem ethereumReceipt_named
    (named : ∀ existing ∈ stored, existing.id.execution = some existing.executionId)
    (attempt : AttemptRecord) (receipt : ChainReceipt) :
    (ethereumReceipt stored run campaign now attempt receipt).id.execution =
      some (ethereumReceipt stored run campaign now attempt receipt).executionId := by
  unfold ethereumReceipt
  cases reused : reusedReceipt stored attempt receipt with
  | none => rfl
  | some existing => exact named existing (List.mem_of_find?_eq_some reused)

/-- The receipts of the Ethereum branch are those of the first answers. -/
theorem mem_ethereumReceipts {attempts : List AttemptRecord} {seen : List ExecutionId}
    {recorded : ReceiptRecord} :
    recorded ∈ ethereumReceipts stored run campaign answer now seen attempts ↔
      ∃ attempt receipt, attempt.executionId ∉ seen ∧
        FirstAnswer answer attempts attempt receipt ∧
        recorded = ethereumReceipt stored run campaign now attempt receipt := by
  induction attempts generalizing seen with
  | nil => simp [ethereumReceipts, FirstAnswer]
  | cons attempt rest inductionHypothesis =>
      cases answered : ethereumAnswer answer attempt with
      | none =>
          have skip : ∀ other : AttemptRecord, ¬ (attempt.executionId = other.executionId ∧
              (ethereumAnswer answer attempt).isSome) := by simp [answered]
          simp only [ethereumReceipts, answered, inductionHypothesis]
          refine exists_congr fun other => exists_congr fun receipt => ?_
          rw [firstAnswer_cons_none (skip other)]
      | some found =>
          by_cases known : attempt.executionId ∈ seen
          · simp only [ethereumReceipts, answered, known, if_true, inductionHypothesis]
            refine exists_congr fun other => exists_congr fun receipt => ?_
            refine and_congr_right fun unseen => ?_
            have differ : attempt.executionId ≠ other.executionId := by
              intro same
              exact unseen (same ▸ known)
            rw [firstAnswer_cons_none fun both => differ both.1]
          · simp only [ethereumReceipts, answered, known, if_false, List.mem_cons,
              inductionHypothesis, not_or]
            constructor
            · rintro (rfl | ⟨other, receipt, ⟨differ, unseen⟩, first, rfl⟩)
              · exact ⟨attempt, found, known, (firstAnswer_cons_some rfl answered).mpr ⟨rfl, rfl⟩,
                  rfl⟩
              · refine ⟨other, receipt, unseen, ?_, rfl⟩
                exact (firstAnswer_cons_none fun both => differ both.1.symm).mpr first
            · rintro ⟨other, receipt, unseen, first, rfl⟩
              by_cases same : attempt.executionId = other.executionId
              · obtain ⟨rfl, rfl⟩ := (firstAnswer_cons_some same answered).mp first
                exact Or.inl rfl
              · refine Or.inr ⟨other, receipt, ⟨fun equal => same equal.symm, unseen⟩, ?_, rfl⟩
                exact (firstAnswer_cons_none fun both => same both.1).mp first

/-- No execution has two receipts. -/
theorem ethereumReceipts_executions_nodup (attempts : List AttemptRecord)
    (seen : List ExecutionId) :
    ((ethereumReceipts stored run campaign answer now seen attempts).map
      ReceiptRecord.executionId).Nodup := by
  induction attempts generalizing seen with
  | nil => exact List.nodup_nil
  | cons attempt rest inductionHypothesis =>
      cases answered : ethereumAnswer answer attempt with
      | none =>
          simp only [ethereumReceipts, answered]
          exact inductionHypothesis seen
      | some found =>
          by_cases known : attempt.executionId ∈ seen
          · simp only [ethereumReceipts, answered, known, if_true]
            exact inductionHypothesis seen
          · simp only [ethereumReceipts, answered, known, if_false, List.map_cons, List.nodup_cons]
            refine ⟨?_, inductionHypothesis (attempt.executionId :: seen)⟩
            intro member
            obtain ⟨recorded, recordedMember, same⟩ := List.mem_map.mp member
            obtain ⟨other, receipt, unseen, -, rfl⟩ := mem_ethereumReceipts.mp recordedMember
            rw [ethereumReceipt_execution, ethereumReceipt_execution] at same
            exact unseen (by simp [same])

theorem mem_reconcileEthereum {attempts : List AttemptRecord} {recorded : ReceiptRecord} :
    recorded ∈ (reconcileEthereum stored run campaign answer now attempts).receipts ↔
      ∃ attempt receipt, FirstAnswer answer attempts attempt receipt ∧
        recorded = ethereumReceipt stored run campaign now attempt receipt := by
  simp [reconcileEthereum, mem_ethereumReceipts]

theorem ethereumResult_confirmed_iff {receipts : List ReceiptRecord} :
    ethereumResult receipts = .confirmed ↔
      receipts ≠ [] ∧ ∀ receipt ∈ receipts, receipt.state = .confirmed := by
  unfold ethereumResult
  by_cases empty : receipts = []
  · simp [empty]
  · by_cases confirmed : ∀ receipt ∈ receipts, receipt.state = .confirmed
    · rw [if_neg empty, if_pos confirmed]
      exact ⟨fun _ => ⟨empty, confirmed⟩, fun _ => rfl⟩
    · rw [if_neg empty, if_neg confirmed]
      simp [confirmed]

theorem ethereumResult_failed_iff {receipts : List ReceiptRecord} :
    ethereumResult receipts = .failed ↔ ∃ receipt ∈ receipts, receipt.state ≠ .confirmed := by
  unfold ethereumResult
  by_cases empty : receipts = []
  · simp [empty]
  · by_cases confirmed : ∀ receipt ∈ receipts, receipt.state = .confirmed
    · rw [if_neg empty, if_pos confirmed]
      simpa using confirmed
    · rw [if_neg empty, if_neg confirmed]
      simpa using confirmed

/-- The receipt that the branch reports for a first answer is a confirmed one. -/
def ConfirmedAnswer (stored : List ReceiptRecord) (attempt : AttemptRecord)
    (receipt : ChainReceipt) : Prop :=
  match reusedReceipt stored attempt receipt with
  | some existing => existing.state = .confirmed
  | none => receipt.succeeded = true

/-- Chain answers whose Ethereum update is accepted: stored receipts that are
used again are settled ones with a cost, and when every execution that has a
receipt is confirmed, every execution of the run has one. -/
structure EthereumCoherent (stored : List ReceiptRecord)
    (answer : AttemptRecord → Option ChainReceipt) (attempts : List AttemptRecord) : Prop where
  usable : ∀ attempt receipt existing, FirstAnswer answer attempts attempt receipt →
    reusedReceipt stored attempt receipt = some existing →
    existing.state ≠ .pending ∧ ∃ amount ∈ existing.actualSpendWei, 0 ≤ amount
  complete : (∃ attempt receipt, FirstAnswer answer attempts attempt receipt) →
    (∀ attempt receipt, FirstAnswer answer attempts attempt receipt →
      ConfirmedAnswer stored attempt receipt) →
    ∀ attempt ∈ attempts, ∃ other receipt, FirstAnswer answer attempts other receipt ∧
      other.executionId = attempt.executionId

theorem ethereumReceipt_confirmed_iff {attempt : AttemptRecord} {receipt : ChainReceipt} :
    (ethereumReceipt stored run campaign now attempt receipt).state = .confirmed ↔
      ConfirmedAnswer stored attempt receipt := by
  unfold ethereumReceipt ConfirmedAnswer
  cases reusedReceipt stored attempt receipt with
  | none => cases receipt.succeeded <;> simp
  | some existing => rfl

/-- A reported receipt is valid unless it is a stored one that is pending or has
no cost. -/
theorem ethereumReceipt_valid_iff
    (valueNonneg : 0 ≤ campaign.mintPriceWei * campaign.quantity)
    (states : ∀ existing ∈ stored,
      existing.state ∈ [.pending, .confirmed, .reorged, .failed] ∧ existing.blockNumber ≠ none)
    {attempt : AttemptRecord} {receipt : ChainReceipt} :
    ¬ (ethereumReceipt stored run campaign now attempt receipt).Invalid .ethereum true ↔
      ∀ existing, reusedReceipt stored attempt receipt = some existing →
        existing.state ≠ .pending ∧ ∃ amount ∈ existing.actualSpendWei, 0 ≤ amount := by
  unfold ethereumReceipt
  cases reused : reusedReceipt stored attempt receipt with
  | none =>
      have cost := observedSpend_nonneg valueNonneg receipt.succeeded receipt.gasUsed
        receipt.effectiveGasPrice
      constructor
      · simp
      · rintro - (state | ⟨pending, -⟩ | unmined | hashless | unpaid)
        · cases succeeded : receipt.succeeded <;> simp [succeeded] at state
        · cases succeeded : receipt.succeeded <;> simp [succeeded] at pending
        · cases unmined
        · exact receipt.blockHashPresent hashless
        · exact Int.not_le.mpr (unpaid _ rfl) cost
  | some existing =>
      have member := List.mem_of_find?_eq_some reused
      have matched := List.find?_some reused
      simp only [decide_eq_true_eq] at matched
      obtain ⟨state, mined⟩ := states existing member
      have block : existing.blockHash.getD "" ≠ "" := by
        rw [matched.2]
        exact receipt.blockHashPresent
      simp only [Option.getD_some, Option.some.injEq, forall_eq', ReceiptRecord.Invalid, state,
        not_true_eq_false, mined, block, false_or, or_true, and_true, not_or]
      refine and_congr_right fun _ => ?_
      cases existing.actualSpendWei with
      | none => simp
      | some amount => simp

/-- The Ethereum branch reports attempts of the run under their own ids. -/
theorem updateOf_ethereum {attempts : List AttemptRecord}
    (ids : (attempts.map AttemptRecord.id).Nodup)
    (ofRun : ∀ attempt ∈ attempts, attempt.runId = run.id)
    (receiptsOfRun : ∀ receipt ∈ stored, ∀ attempt ∈ attempts,
      receipt.executionId = attempt.executionId → receipt.runId = attempt.runId) :
    UpdateOf run (reconcileEthereum stored run campaign answer now attempts) := by
  have updated : ∀ old new, ethereumAttempt answer old = some new →
      new.id = old.id ∧ new.runId = old.runId := by
    intro old new changed
    obtain ⟨receipt, -, rfl⟩ := Option.map_eq_some_iff.mp changed
    exact ⟨rfl, rfl⟩
  constructor
  · exact ids.sublist (Table.filterMap_keys_sublist (fun old new changed => (updated old new changed).1) _)
  · intro attempt member
    obtain ⟨old, oldMember, changed⟩ := List.mem_filterMap.mp member
    rw [(updated old attempt changed).2]
    exact ofRun old oldMember
  · intro recorded member
    obtain ⟨attempt, receipt, -, ⟨first, -⟩, rfl⟩ := mem_ethereumReceipts.mp member
    have attemptMember := List.mem_of_find?_eq_some first
    unfold ethereumReceipt
    cases reused : reusedReceipt stored attempt receipt with
    | none => rfl
    | some existing =>
        have matched := List.find?_some reused
        simp only [decide_eq_true_eq] at matched
        exact (receiptsOfRun existing (List.mem_of_find?_eq_some reused) attempt attemptMember
          matched.1).trans (ofRun attempt attemptMember)

/-- The Ethereum branch is accepted exactly for coherent answers. -/
theorem ethereum_accepted_iff
    (valueNonneg : 0 ≤ campaign.mintPriceWei * campaign.quantity)
    (states : ∀ existing ∈ stored,
      existing.state ∈ [.pending, .confirmed, .reorged, .failed] ∧ existing.blockNumber ≠ none)
    (named : ∀ existing ∈ stored, existing.id.execution = some existing.executionId)
    {attempts : List AttemptRecord} (nonempty : attempts ≠ []) :
    UpdateChecks .ethereum attempts (reconcileEthereum stored run campaign answer now attempts) ↔
      EthereumCoherent stored answer attempts := by
  let receipts := ethereumReceipts stored run campaign answer now [] attempts
  have member : ∀ recorded, recorded ∈ receipts ↔ ∃ attempt receipt,
      FirstAnswer answer attempts attempt receipt ∧
        recorded = ethereumReceipt stored run campaign now attempt receipt :=
    fun _ => mem_reconcileEthereum
  have result : (reconcileEthereum stored run campaign answer now attempts).result =
      ethereumResult receipts := rfl
  have otherResult : ethereumResult receipts = .confirmed ∨ ethereumResult receipts = .failed ∨
      ethereumResult receipts = .unknown := by
    unfold ethereumResult
    split_ifs <;> simp
  have failedResult : ethereumResult receipts = .failed → receipts ≠ [] := by
    intro failed
    obtain ⟨recorded, recordedMember, -⟩ := ethereumResult_failed_iff.mp failed
    exact List.ne_nil_of_mem recordedMember
  constructor
  · intro checks
    constructor
    · intro attempt receipt existing first reused
      have valid := checks.valid _ ((member _).mpr ⟨attempt, receipt, first, rfl⟩)
      exact (ethereumReceipt_valid_iff valueNonneg states).mp valid existing reused
    · rintro ⟨attempt, receipt, first⟩ confirmed other otherMember
      have isConfirmed : ethereumResult receipts = .confirmed := by
        rw [ethereumResult_confirmed_iff]
        refine ⟨List.ne_nil_of_mem ((member _).mpr ⟨attempt, receipt, first, rfl⟩), ?_⟩
        intro recorded recordedMember
        obtain ⟨answered, found, answer, rfl⟩ := (member recorded).mp recordedMember
        exact ethereumReceipt_confirmed_iff.mpr (confirmed answered found answer)
      obtain ⟨-, complete⟩ := checks.complete (Or.inl isConfirmed)
      obtain ⟨recorded, recordedMember, same⟩ := complete other otherMember
      obtain ⟨answered, found, answer, rfl⟩ := (member recorded).mp recordedMember
      exact ⟨answered, found, answer, (ethereumReceipt_execution answered found).symm.trans same⟩
  · intro coherent
    have notFinal : ethereumResult receipts ≠ .final ∧ ethereumResult receipts ≠ .reorged := by
      rcases otherResult with is | is | is <;> simp [is]
    constructor
    · refine receiptIds_nodup ?_ (ethereumReceipts_executions_nodup attempts [])
      intro recorded recordedMember
      obtain ⟨attempt, receipt, -, rfl⟩ := (member recorded).mp recordedMember
      exact ethereumReceipt_named named attempt receipt
    · intro recorded recordedMember
      obtain ⟨attempt, receipt, first, rfl⟩ := (member recorded).mp recordedMember
      exact (ethereumReceipt_valid_iff valueNonneg states).mpr fun existing =>
        coherent.usable attempt receipt existing first
    · intro contradiction
      cases contradiction
    · rw [result]
      rintro (confirmed | final | reorged)
      · refine ⟨nonempty, ?_⟩
        obtain ⟨some, all⟩ := ethereumResult_confirmed_iff.mp confirmed
        obtain ⟨recorded, recordedMember⟩ := List.exists_mem_of_ne_nil _ some
        obtain ⟨attempt, receipt, first, -⟩ := (member recorded).mp recordedMember
        have complete := coherent.complete ⟨attempt, receipt, first⟩ fun other found answer =>
          ethereumReceipt_confirmed_iff.mp (all _ ((member _).mpr ⟨other, found, answer, rfl⟩))
        intro other otherMember
        obtain ⟨answered, found, answer, same⟩ := complete other otherMember
        exact ⟨_, (member _).mpr ⟨answered, found, answer, rfl⟩,
          (ethereumReceipt_execution answered found).trans same⟩
      · exact absurd final notFinal.1
      · exact absurd reorged notFinal.2
    · exact fun final => absurd final notFinal.1
    · exact fun confirmed => ⟨rfl, (ethereumResult_confirmed_iff.mp confirmed).2⟩
    · exact fun reorged => absurd reorged notFinal.2
    · exact fun failed _ => failedResult failed

end Ethereum

end MintBot
