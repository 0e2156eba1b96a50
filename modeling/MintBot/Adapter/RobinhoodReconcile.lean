import MintBot.Adapter.Submissions
import MintBot.Adapter.UpdateChecks

/-!
# The Robinhood branch and the coordinator

The Robinhood branch counts the outcomes of the submissions.  Its result is
terminal only when every submission that is not replaced has the same outcome.
-/

namespace MintBot

section Robinhood

variable {answers : ChainAnswers} {run : RunRecord} {campaign : Campaign} {now : Time}

/-- The submissions that the Robinhood branch looks up. -/
def robinhoodSubmissions (attempts : List AttemptRecord) : List AttemptRecord :=
  uniqueSubmittedAttempts (attempts.filter fun attempt => attempt.Submitted)

/-- The receipt of an outcome and the state it is recorded in. -/
def RobinhoodOutcome.recorded : RobinhoodOutcome → Option (ObservedReceipt × ExecutionState)
  | .reorged receipt => some (receipt, .reorged)
  | .final receipt => some (receipt, .confirmed)
  | .failed receipt => some (receipt, .failed)
  | _ => none

/-- The block in which a submission is observed, and whether it left the chain. -/
def robinhoodSighting (answers : ChainAnswers) (submitted : List AttemptRecord)
    (attempt : AttemptRecord) : Option (ExecutionId × String × Bool) :=
  (robinhoodOutcome answers submitted attempt).recorded.map fun seen =>
    (attempt.executionId, seen.1.blockHash, seen.2 = .reorged)

/-- Every submission that is not replaced has an outcome. -/
def AllUnreplaced (answers : ChainAnswers) (submitted : List AttemptRecord)
    (p : RobinhoodOutcome → Bool) : Prop :=
  ∀ attempt ∈ submitted, (robinhoodOutcome answers submitted attempt).isReplaced ∨
    p (robinhoodOutcome answers submitted attempt)

/-- Chain answers whose Robinhood update is accepted: one execution is not
observed twice in one block, and when all submissions that are not replaced are
final, or all are reorged, every execution of the run has a submission. -/
structure RobinhoodCoherent (answers : ChainAnswers) (attempts : List AttemptRecord) : Prop where
  distinct : ((robinhoodSubmissions attempts).filterMap
    (robinhoodSighting answers (robinhoodSubmissions attempts))).Nodup
  complete : robinhoodSubmissions attempts ≠ [] →
    AllUnreplaced answers (robinhoodSubmissions attempts) RobinhoodOutcome.isFinal ∨
      AllUnreplaced answers (robinhoodSubmissions attempts) RobinhoodOutcome.isReorged →
    ∀ attempt ∈ attempts, ∃ other ∈ attempts,
      other.Submitted ∧ other.executionId = attempt.executionId

/-- Two kinds of elements that never overlap make up a list exactly when their
numbers do. -/
theorem countP_eq_length_sub {α : Type} {p r : α → Bool} (disjoint : ∀ x, p x → ¬ r x)
    (elements : List α) :
    elements.countP r = elements.length - elements.countP p ↔ ∀ x ∈ elements, p x ∨ r x := by
  have split := List.length_eq_countP_add_countP (l := elements) p
  have others : elements.countP r = (elements.filter fun x => ¬ p x).countP r := by
    rw [List.countP_filter]
    refine List.countP_congr fun x _ => ?_
    by_cases first : p x
    · simp [first, disjoint x first]
    · simp [first]
  rw [others, split, Nat.add_sub_cancel_left, List.countP_eq_length_filter (p := fun x => ¬ p x),
    List.countP_eq_length]
  constructor
  · intro all x member
    by_cases first : p x
    · exact Or.inl first
    · exact Or.inr (all x (List.mem_filter.mpr ⟨member, by simpa using first⟩))
  · intro all x member
    obtain ⟨old, first⟩ := List.mem_filter.mp member
    exact (all x old).resolve_left (by simpa using first)

theorem countOutcomes_pos {submitted : List AttemptRecord} {p : RobinhoodOutcome → Bool} :
    0 < countOutcomes answers submitted p ↔
      ∃ attempt ∈ submitted, p (robinhoodOutcome answers submitted attempt) := by
  unfold countOutcomes
  exact List.countP_pos_iff

theorem countOutcomes_eq_unreplaced {submitted : List AttemptRecord} {p : RobinhoodOutcome → Bool}
    (apart : ∀ outcome : RobinhoodOutcome, outcome.isReplaced → ¬ p outcome) :
    countOutcomes answers submitted p =
        submitted.length - countOutcomes answers submitted RobinhoodOutcome.isReplaced ↔
      AllUnreplaced answers submitted p := by
  unfold countOutcomes AllUnreplaced
  exact countP_eq_length_sub (fun attempt => apart _) submitted

/-- What the counters of the branch say when the result is final, reorged or
failed. -/
theorem robinhoodResult_cases (submitted : List AttemptRecord) :
    (robinhoodResult answers submitted = .final ↔
      AllUnreplaced answers submitted RobinhoodOutcome.isFinal) ∧
    (robinhoodResult answers submitted = .reorged ↔
      AllUnreplaced answers submitted RobinhoodOutcome.isReorged ∧
        ∃ attempt ∈ submitted, (robinhoodOutcome answers submitted attempt).isReorged) ∧
    robinhoodResult answers submitted ≠ .confirmed ∧
    (robinhoodResult answers submitted = .failed →
      ∃ attempt ∈ submitted, (robinhoodOutcome answers submitted attempt).isFailed) := by
  have reorged := @countOutcomes_eq_unreplaced answers submitted RobinhoodOutcome.isReorged
    (by rintro ⟨⟩ <;> simp [RobinhoodOutcome.isReplaced, RobinhoodOutcome.isReorged])
  have final := @countOutcomes_eq_unreplaced answers submitted RobinhoodOutcome.isFinal
    (by rintro ⟨⟩ <;> simp [RobinhoodOutcome.isReplaced, RobinhoodOutcome.isFinal])
  have absent : ∀ p q : RobinhoodOutcome → Bool, (∀ outcome, q outcome → ¬ outcome.isReplaced) →
      (∀ outcome, q outcome → ¬ p outcome) → AllUnreplaced answers submitted p →
      ¬ ∃ attempt ∈ submitted, q (robinhoodOutcome answers submitted attempt) := by
    rintro p q notReplaced other all ⟨attempt, member, holds⟩
    exact (all attempt member).elim (notReplaced _ holds) (other _ holds)
  have noMissing := fun p => absent p RobinhoodOutcome.isMissing
    (by rintro ⟨⟩ <;> simp [RobinhoodOutcome.isMissing, RobinhoodOutcome.isReplaced])
  have noReorged := absent RobinhoodOutcome.isFinal RobinhoodOutcome.isReorged
    (by rintro ⟨⟩ <;> simp [RobinhoodOutcome.isReorged, RobinhoodOutcome.isReplaced])
    (by rintro ⟨⟩ <;> simp [RobinhoodOutcome.isReorged, RobinhoodOutcome.isFinal])
  have noPending := absent RobinhoodOutcome.isFinal RobinhoodOutcome.isPending
    (by rintro ⟨⟩ <;> simp [RobinhoodOutcome.isPending, RobinhoodOutcome.isReplaced])
    (by rintro ⟨⟩ <;> simp [RobinhoodOutcome.isPending, RobinhoodOutcome.isFinal])
  have noFailed := absent RobinhoodOutcome.isFinal RobinhoodOutcome.isFailed
    (by rintro ⟨⟩ <;> simp [RobinhoodOutcome.isFailed, RobinhoodOutcome.isReplaced])
    (by rintro ⟨⟩ <;> simp [RobinhoodOutcome.isFailed, RobinhoodOutcome.isFinal])
  have noMissingFinal := noMissing RobinhoodOutcome.isFinal
    (by rintro ⟨⟩ <;> simp [RobinhoodOutcome.isMissing, RobinhoodOutcome.isFinal])
  have noMissingReorged := noMissing RobinhoodOutcome.isReorged
    (by rintro ⟨⟩ <;> simp [RobinhoodOutcome.isMissing, RobinhoodOutcome.isReorged])
  unfold robinhoodResult
  simp only [countOutcomes_pos]
  by_cases missing : ∃ attempt ∈ submitted, (robinhoodOutcome answers submitted attempt).isMissing
  · rw [if_pos missing]
    simp only [reduceCtorEq, false_iff, ne_eq, not_false_eq_true, false_imp_iff, and_true]
    exact ⟨fun all => noMissingFinal all missing, fun all => noMissingReorged all.1 missing⟩
  rw [if_neg missing]
  by_cases someReorged :
      ∃ attempt ∈ submitted, (robinhoodOutcome answers submitted attempt).isReorged
  · rw [if_pos someReorged]
    have notFinal : ¬ AllUnreplaced answers submitted RobinhoodOutcome.isFinal :=
      fun all => noReorged all someReorged
    by_cases all : AllUnreplaced answers submitted RobinhoodOutcome.isReorged
    · rw [if_pos (reorged.mpr all)]
      simp [all, someReorged, notFinal]
    · rw [if_neg fun same => all (reorged.mp same)]
      simp [all, notFinal]
  rw [if_neg someReorged]
  by_cases pending : ∃ attempt ∈ submitted, (robinhoodOutcome answers submitted attempt).isPending
  · rw [if_pos pending]
    have notFinal : ¬ AllUnreplaced answers submitted RobinhoodOutcome.isFinal :=
      fun all => noPending all pending
    split_ifs <;> simp [someReorged, notFinal]
  rw [if_neg pending]
  by_cases failed : ∃ attempt ∈ submitted, (robinhoodOutcome answers submitted attempt).isFailed
  · rw [if_pos failed]
    have notFinal : ¬ AllUnreplaced answers submitted RobinhoodOutcome.isFinal :=
      fun all => noFailed all failed
    simp [someReorged, notFinal, failed]
  rw [if_neg failed]
  by_cases all : AllUnreplaced answers submitted RobinhoodOutcome.isFinal
  · rw [if_pos (final.mpr all)]
    simp [someReorged, all]
  · rw [if_neg fun same => all (final.mp same)]
    simp [someReorged, all]

/-- A recorded receipt names its block and is settled. -/
theorem robinhoodOutcome_recorded {submitted : List AttemptRecord} {attempt : AttemptRecord}
    {receipt : ObservedReceipt} {state : ExecutionState}
    (recorded : (robinhoodOutcome answers submitted attempt).recorded = some (receipt, state)) :
    receipt.blockHash ≠ "" ∧ (state = .reorged ∨ state = .confirmed ∨ state = .failed) := by
  unfold robinhoodOutcome at recorded
  cases complete : completeReceipt answers.robinhoodReceipt submitted attempt with
  | none =>
      rw [complete] at recorded
      dsimp only at recorded
      split_ifs at recorded <;> cases recorded
  | some found =>
      have block : found.blockHash ≠ "" := by
        simpa using (Option.filter_eq_some_iff.mp complete).2
      rw [complete] at recorded
      dsimp only at recorded
      split at recorded
      · cases recorded
      · split at recorded
        · cases recorded
        · cases recorded
          exact ⟨block, Or.inl rfl⟩
        · split_ifs at recorded <;> cases recorded
          · exact ⟨block, Or.inr (Or.inl rfl)⟩
          · exact ⟨block, Or.inr (Or.inr rfl)⟩

/-- A submission is replaced when it has no receipt and a sibling has one. -/
theorem robinhoodOutcome_isReplaced {submitted : List AttemptRecord} {attempt : AttemptRecord} :
    (robinhoodOutcome answers submitted attempt).isReplaced ↔
      completeReceipt answers.robinhoodReceipt submitted attempt = none ∧
        SiblingMined answers.robinhoodReceipt submitted attempt := by
  unfold robinhoodOutcome
  cases completeReceipt answers.robinhoodReceipt submitted attempt with
  | none =>
      by_cases sibling : SiblingMined answers.robinhoodReceipt submitted attempt <;>
        simp [sibling, RobinhoodOutcome.isReplaced]
  | some receipt =>
      dsimp only
      repeat' split
      all_goals simp [RobinhoodOutcome.isReplaced]

/-- Every submission has one of its execution that is not replaced. -/
theorem unreplaced_of_submitted {submitted : List AttemptRecord} {attempt : AttemptRecord}
    (member : attempt ∈ submitted) :
    ∃ other ∈ submitted, other.executionId = attempt.executionId ∧
      ¬ (robinhoodOutcome answers submitted other).isReplaced := by
  by_cases replaced : (robinhoodOutcome answers submitted attempt).isReplaced
  · obtain ⟨-, other, otherMember, same, -, -, mined⟩ := robinhoodOutcome_isReplaced.mp replaced
    exact ⟨other, otherMember, same, fun again => mined (robinhoodOutcome_isReplaced.mp again).1⟩
  · exact ⟨attempt, member, rfl, replaced⟩

theorem robinhoodReceipt_eq (submitted : List AttemptRecord) (attempt : AttemptRecord) :
    robinhoodReceipt answers submitted run campaign now attempt =
      (robinhoodOutcome answers submitted attempt).recorded.map fun seen =>
        robinhoodReceiptRecord run campaign now attempt seen.1 seen.2 := by
  unfold robinhoodReceipt
  cases robinhoodOutcome answers submitted attempt <;> rfl

theorem mem_robinhoodReceipts {submitted : List AttemptRecord} {recorded : ReceiptRecord} :
    recorded ∈ submitted.filterMap (robinhoodReceipt answers submitted run campaign now) ↔
      ∃ attempt ∈ submitted, ∃ receipt state,
        (robinhoodOutcome answers submitted attempt).recorded = some (receipt, state) ∧
          recorded = robinhoodReceiptRecord run campaign now attempt receipt state := by
  simp only [List.mem_filterMap, robinhoodReceipt_eq, Option.map_eq_some_iff, Prod.exists]
  refine exists_congr fun attempt => and_congr_right fun _ => ?_
  refine exists_congr fun receipt => exists_congr fun state => and_congr_right fun _ => ?_
  exact eq_comm

/-- Receipts of the Robinhood branch have distinct ids exactly when their
sightings are distinct. -/
theorem robinhoodReceipts_ids_nodup (submitted : List AttemptRecord) :
    ((submitted.filterMap (robinhoodReceipt answers submitted run campaign now)).map
        ReceiptRecord.id).Nodup ↔
      (submitted.filterMap (robinhoodSighting answers submitted)).Nodup := by
  have ids : (submitted.filterMap (robinhoodReceipt answers submitted run campaign now)).map
      ReceiptRecord.id = (submitted.filterMap (robinhoodSighting answers submitted)).map
        fun sighting => if sighting.2.2 then .reconciledReorged sighting.1 sighting.2.1
          else .reconciledFinal sighting.1 sighting.2.1 := by
    rw [List.map_filterMap, List.map_filterMap]
    refine List.filterMap_congr fun attempt _ => ?_
    rw [robinhoodReceipt_eq, robinhoodSighting, Option.map_map, Option.map_map]
    refine Option.map_congr fun seen _ => ?_
    by_cases reorged : seen.2 = .reorged <;> simp [robinhoodReceiptRecord, reorged]
  rw [ids]
  refine List.nodup_map_iff ?_
  rintro ⟨execution, block, reorged⟩ ⟨otherExecution, otherBlock, otherReorged⟩ same
  cases reorged <;> cases otherReorged <;> simp at same <;> simp [same]

theorem robinhoodReceiptRecord_valid
    (valueNonneg : 0 ≤ campaign.mintPriceWei * campaign.quantity) (attempt : AttemptRecord)
    {receipt : ObservedReceipt} {state : ExecutionState} (block : receipt.blockHash ≠ "")
    (settled : state = .reorged ∨ state = .confirmed ∨ state = .failed) :
    ¬ (robinhoodReceiptRecord run campaign now attempt receipt state).Invalid .robinhood true := by
  have spend := observedSpend_nonneg valueNonneg receipt.succeeded receipt.gasUsed
    receipt.effectiveGasPrice
  have cost : (0 : Int) ≤ if state = .reorged then 0 else
      observedSpend campaign receipt.succeeded receipt.gasUsed receipt.effectiveGasPrice := by
    split_ifs
    · exact Int.le_refl 0
    · exact spend
  rintro (unknown | ⟨-, refused | refused⟩ | unmined | hashless | unpaid)
  · rcases settled with rfl | rfl | rfl <;> simp [robinhoodReceiptRecord] at unknown
  · cases refused
  · cases refused
  · cases unmined
  · exact block hashless
  · exact Int.not_le.mpr (unpaid _ rfl) cost

/-- The executions of the submissions are those of the attempts with a hash and
a nonce. -/
theorem robinhoodSubmissions_execution {attempts : List AttemptRecord} {id : ExecutionId} :
    (∃ other ∈ robinhoodSubmissions attempts, other.executionId = id) ↔
      ∃ other ∈ attempts, other.Submitted ∧ other.executionId = id := by
  have kept := uniqueSubmittedAttempts_unique (attempts.filter fun attempt => attempt.Submitted)
  constructor
  · rintro ⟨other, member, same⟩
    obtain ⟨old, submitted⟩ := List.mem_filter.mp (kept.known other member)
    exact ⟨other, old, of_decide_eq_true submitted, same⟩
  · rintro ⟨attempt, member, submitted, same⟩
    obtain ⟨other, otherMember, key⟩ :=
      kept.covered attempt (List.mem_filter.mpr ⟨member, decide_eq_true submitted⟩)
    exact ⟨other, otherMember, (submitted_of_key key submitted).2.trans same⟩

/-- When every submission that is not replaced is recorded, every execution with
a submission has a receipt. -/
theorem robinhoodReceipt_of_submission {submitted : List AttemptRecord}
    {p : RobinhoodOutcome → Bool} (recordedOf : ∀ outcome, p outcome → outcome.recorded ≠ none)
    (all : AllUnreplaced answers submitted p) {attempt : AttemptRecord}
    (member : attempt ∈ submitted) :
    ∃ recorded ∈ submitted.filterMap (robinhoodReceipt answers submitted run campaign now),
      recorded.executionId = attempt.executionId := by
  obtain ⟨other, otherMember, same, unreplaced⟩ :=
    @unreplaced_of_submitted answers _ _ member
  have holds := (all other otherMember).resolve_left unreplaced
  obtain ⟨⟨receipt, state⟩, recorded⟩ := Option.ne_none_iff_exists'.mp (recordedOf _ holds)
  exact ⟨_, mem_robinhoodReceipts.mpr ⟨other, otherMember, receipt, state, recorded, rfl⟩, same⟩

theorem updateOf_robinhood {attempts : List AttemptRecord}
    (ids : (attempts.map AttemptRecord.id).Nodup)
    (ofRun : ∀ attempt ∈ attempts, attempt.runId = run.id) :
    UpdateOf run (reconcileRobinhood answers run campaign now attempts) := by
  have kept := uniqueSubmittedAttempts_unique (attempts.filter fun attempt => attempt.Submitted)
  have filtered : ((attempts.filter fun attempt => attempt.Submitted).map
      AttemptRecord.id).Nodup := ids.sublist (List.filter_sublist.map AttemptRecord.id)
  have updated : ∀ submitted old new, robinhoodAttempt answers submitted old = some new →
      new.id = old.id ∧ new.runId = old.runId := by
    intro submitted old new changed
    unfold robinhoodAttempt at changed
    split at changed <;> cases changed <;> exact ⟨rfl, rfl⟩
  unfold reconcileRobinhood
  by_cases empty : robinhoodSubmissions attempts = []
  · rw [robinhoodSubmissions] at empty
    simp only [empty, if_true]
    constructor <;> simp [unknownUpdate]
  · rw [robinhoodSubmissions] at empty
    simp only [empty, if_false]
    constructor
    · exact (kept.ids filtered).sublist
        (Table.filterMap_keys_sublist (fun old new changed => (updated _ old new changed).1) _)
    · intro attempt member
      obtain ⟨old, oldMember, changed⟩ := List.mem_filterMap.mp member
      rw [(updated _ old attempt changed).2]
      exact ofRun old (List.mem_filter.mp (kept.known old oldMember)).1
    · intro recorded member
      obtain ⟨attempt, -, receipt, state, -, rfl⟩ := mem_robinhoodReceipts.mp member
      rfl

/-- The Robinhood branch is accepted exactly for coherent answers. -/
theorem robinhood_accepted_iff
    (valueNonneg : 0 ≤ campaign.mintPriceWei * campaign.quantity)
    {attempts : List AttemptRecord} (nonempty : attempts ≠ []) :
    UpdateChecks .robinhood attempts (reconcileRobinhood answers run campaign now attempts) ↔
      RobinhoodCoherent answers attempts := by
  by_cases empty : robinhoodSubmissions attempts = []
  · have early : reconcileRobinhood answers run campaign now attempts =
        unknownUpdate "no persisted transaction attempts" := by
      rw [robinhoodSubmissions] at empty
      simp only [reconcileRobinhood, empty, if_true]
    rw [early]
    constructor
    · intro _
      constructor
      · simp [empty]
      · exact fun some => absurd empty some
    · exact fun _ => updateChecks_unknown rfl rfl
  let submitted := robinhoodSubmissions attempts
  let receipts := submitted.filterMap (robinhoodReceipt answers submitted run campaign now)
  have result : (reconcileRobinhood answers run campaign now attempts).result =
      robinhoodResult answers submitted := by
    have some := empty
    rw [robinhoodSubmissions] at some
    simp only [reconcileRobinhood, some, if_false]
    rfl
  have reported : (reconcileRobinhood answers run campaign now attempts).receipts = receipts := by
    have some := empty
    rw [robinhoodSubmissions] at some
    simp only [reconcileRobinhood, some, if_false]
    rfl
  obtain ⟨final, reorged, notConfirmed, failed⟩ :=
    @robinhoodResult_cases answers submitted
  have someReorged : AllUnreplaced answers submitted RobinhoodOutcome.isReorged →
      ∃ attempt ∈ submitted, (robinhoodOutcome answers submitted attempt).isReorged := by
    intro all
    obtain ⟨attempt, member⟩ := List.exists_mem_of_ne_nil submitted empty
    obtain ⟨other, otherMember, -, unreplaced⟩ :=
      @unreplaced_of_submitted answers _ _ member
    exact ⟨other, otherMember, (all other otherMember).resolve_left unreplaced⟩
  have finalRecorded : ∀ outcome : RobinhoodOutcome, outcome.isFinal → outcome.recorded ≠ none := by
    rintro ⟨⟩ <;> simp [RobinhoodOutcome.isFinal, RobinhoodOutcome.recorded]
  have reorgedRecorded :
      ∀ outcome : RobinhoodOutcome, outcome.isReorged → outcome.recorded ≠ none := by
    rintro ⟨⟩ <;> simp [RobinhoodOutcome.isReorged, RobinhoodOutcome.recorded]
  constructor
  · intro checks
    constructor
    · have distinct := checks.distinct
      rw [reported] at distinct
      exact (robinhoodReceipts_ids_nodup submitted).mp distinct
    · intro _ terminal attempt member
      have isTerminal : robinhoodResult answers submitted = .final ∨
          robinhoodResult answers submitted = .reorged :=
        terminal.imp final.mpr fun all => reorged.mpr ⟨all, someReorged all⟩
      have complete := checks.complete
      rw [result, reported] at complete
      obtain ⟨recorded, recordedMember, same⟩ :=
        (complete (Or.inr isTerminal)).2 attempt member
      obtain ⟨other, otherMember, receipt, state, -, rfl⟩ :=
        mem_robinhoodReceipts.mp recordedMember
      exact robinhoodSubmissions_execution.mp ⟨other, otherMember, same⟩
  · intro coherent
    have complete : robinhoodResult answers submitted = .final ∨
        robinhoodResult answers submitted = .reorged → ∀ attempt ∈ attempts,
          ∃ recorded ∈ receipts, recorded.executionId = attempt.executionId := by
      intro terminal attempt member
      have all := terminal.imp final.mp fun isReorged => (reorged.mp isReorged).1
      obtain ⟨other, otherMember, same⟩ := robinhoodSubmissions_execution.mpr
        (coherent.complete empty all attempt member)
      have found : ∃ recorded ∈ receipts, recorded.executionId = other.executionId := by
        rcases all with allFinal | allReorged
        · exact robinhoodReceipt_of_submission finalRecorded allFinal otherMember
        · exact robinhoodReceipt_of_submission reorgedRecorded allReorged otherMember
      rwa [same] at found
    constructor
    · rw [reported]
      exact (robinhoodReceipts_ids_nodup submitted).mpr coherent.distinct
    · rw [reported]
      intro recorded member
      obtain ⟨attempt, -, receipt, state, seen, rfl⟩ := mem_robinhoodReceipts.mp member
      obtain ⟨block, settled⟩ := robinhoodOutcome_recorded seen
      exact robinhoodReceiptRecord_valid valueNonneg attempt block settled
    · rw [reported]
      intro _ recorded member
      obtain ⟨attempt, -, receipt, state, -, rfl⟩ := mem_robinhoodReceipts.mp member
      by_cases isReorged : state = .reorged <;> simp [robinhoodReceiptRecord, isReorged]
    · rw [result, reported]
      rintro (isConfirmed | terminal)
      · exact absurd isConfirmed notConfirmed
      · exact ⟨nonempty, complete terminal⟩
    · rw [result, reported]
      intro isFinal
      refine ⟨by simp, fun recorded member => ?_⟩
      obtain ⟨attempt, attemptMember, receipt, state, seen, rfl⟩ :=
        mem_robinhoodReceipts.mp member
      have confirmed : state = .confirmed := by
        have outcome := final.mp isFinal attempt attemptMember
        revert outcome seen
        cases robinhoodOutcome answers submitted attempt <;>
          simp +contextual [RobinhoodOutcome.recorded, RobinhoodOutcome.isFinal,
            RobinhoodOutcome.isReplaced, eq_comm]
      simp [robinhoodReceiptRecord, confirmed]
    · rw [result]
      exact fun isConfirmed => absurd isConfirmed notConfirmed
    · rw [result, reported]
      intro isReorged recorded member
      obtain ⟨attempt, attemptMember, receipt, state, seen, rfl⟩ :=
        mem_robinhoodReceipts.mp member
      have outcome := (reorged.mp isReorged).1 attempt attemptMember
      revert outcome seen
      cases robinhoodOutcome answers submitted attempt <;>
        simp +contextual [RobinhoodOutcome.recorded, RobinhoodOutcome.isReorged,
          RobinhoodOutcome.isReplaced, robinhoodReceiptRecord, eq_comm]
    · rw [result, reported]
      intro isFailed _
      obtain ⟨attempt, member, outcome⟩ := failed isFailed
      have recorded : (robinhoodOutcome answers submitted attempt).recorded ≠ none := by
        revert outcome
        cases robinhoodOutcome answers submitted attempt <;>
          simp [RobinhoodOutcome.isFailed, RobinhoodOutcome.recorded]
      obtain ⟨⟨receipt, state⟩, seen⟩ := Option.ne_none_iff_exists'.mp recorded
      exact List.ne_nil_of_mem
        (mem_robinhoodReceipts.mpr ⟨attempt, member, receipt, state, seen, rfl⟩)

end Robinhood

end MintBot
