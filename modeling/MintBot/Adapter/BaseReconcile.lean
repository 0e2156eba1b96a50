import MintBot.Adapter.Submissions
import MintBot.Adapter.UpdateChecks

/-!
# The Base branch and the coordinator

The Base branch is ended early by the first submission whose providers disagree
or that is not canonical.  Otherwise every observed submission is reported at
its stage, and the weakest stage is the result.
-/

namespace MintBot

section Base

variable {run : RunRecord} {campaign : Campaign} {answer : AttemptRecord → BaseAnswer} {now : Time}

/-- Where and at which stage an attempt is observed on Base. -/
def baseSighting (answer : AttemptRecord → BaseAnswer) (attempt : AttemptRecord) :
    Option (ExecutionId × String × FinalityStage) :=
  (baseOutcome answer attempt).observation.map fun seen =>
    (attempt.executionId, seen.2.receipt.blockHash, seen.1)

/-- The answer that ends the Base branch early. -/
def baseStop (answer : AttemptRecord → BaseAnswer) (attempts : List AttemptRecord) :
    Option ReconciliationUpdate :=
  (uniqueSubmittedAttempts attempts).findSome? fun attempt => (baseOutcome answer attempt).stop

/-- Chain answers whose Base update is accepted: no submission is found off the
canonical chain before another answer ends the pass; one execution is not
observed twice in one block and stage; and when every observed submission is
final and successful, every execution of the run has one. -/
structure BaseCoherent (answer : AttemptRecord → BaseAnswer) (attempts : List AttemptRecord) :
    Prop where
  canonical : ∀ update, baseStop answer attempts = some update → update.result ≠ .reorged
  distinct : baseStop answer attempts = none →
    ((uniqueSubmittedAttempts attempts).filterMap (baseSighting answer)).Nodup
  complete : baseStop answer attempts = none →
    (∃ attempt ∈ uniqueSubmittedAttempts attempts,
      (baseOutcome answer attempt).observation ≠ none) →
    (∀ attempt ∈ uniqueSubmittedAttempts attempts, ∀ stage observation,
      (baseOutcome answer attempt).observation = some (stage, observation) →
        stage = .ethereumFinal ∧ observation.receipt.succeeded = true) →
    ∀ attempt ∈ attempts, ∃ other ∈ uniqueSubmittedAttempts attempts,
      (baseOutcome answer other).observation ≠ none ∧ other.executionId = attempt.executionId

/-- An outcome of an attempt is nothing, an update without facts, or an
observation at a known stage. -/
theorem baseOutcome_cases (answer : AttemptRecord → BaseAnswer) (attempt : AttemptRecord) :
    (∀ update, (baseOutcome answer attempt).stop = some update →
      (update.result = .unknown ∨ update.result = .reorged) ∧ update.attempts = [] ∧
        update.receipts = []) ∧
    ∀ stage observation, (baseOutcome answer attempt).observation = some (stage, observation) →
      stage ≠ .unknown := by
  have staged : ∀ observed stage, stagedFinality (some observed) = some stage → stage ≠ .unknown := by
    intro observed stage
    cases observed <;> simp [stagedFinality] <;> rintro rfl <;> simp
  unfold baseOutcome
  by_cases submitted : attempt.Submitted
  · rw [if_neg (not_not.mpr submitted)]
    cases answer attempt with
    | unavailable => simp [BaseOutcome.stop, BaseOutcome.observation]
    | feesRefused reason => simp [BaseOutcome.stop, BaseOutcome.observation, unknownUpdate]
    | answered primary fallback =>
        -- Every disagreement is an update without facts.
        dsimp only
        split_ifs
        any_goals (simp [BaseOutcome.stop, BaseOutcome.observation, unknownUpdate]; done)
        cases stage : stagedFinality (some primary.stage) with
        | none => simp [BaseOutcome.stop, BaseOutcome.observation, unknownUpdate]
        | some known =>
            simpa [BaseOutcome.stop, BaseOutcome.observation] using staged primary.stage known stage
  · rw [if_pos submitted]
    simp [BaseOutcome.stop, BaseOutcome.observation]

theorem foldl_weaken (stages : List FinalityStage) (weakest : ReconciliationResult)
    (start : weakest = .final ∨ weakest = .posted ∨ weakest = .soft) :
    (stages.foldl weaken weakest = .final ∨ stages.foldl weaken weakest = .posted ∨
      stages.foldl weaken weakest = .soft) ∧
    (stages.foldl weaken weakest = .final ↔
      weakest = .final ∧ ∀ stage ∈ stages, stage ≠ .soft ∧ stage ≠ .posted) := by
  induction stages generalizing weakest with
  | nil => simpa using start
  | cons stage rest inductionHypothesis =>
      have next : weaken weakest stage = .final ∨ weaken weakest stage = .posted ∨
          weaken weakest stage = .soft := by
        rcases start with rfl | rfl | rfl <;> cases stage <;> simp [weaken]
      have kept : weaken weakest stage = .final ↔
          weakest = .final ∧ stage ≠ .soft ∧ stage ≠ .posted := by
        rcases start with rfl | rfl | rfl <;> cases stage <;> simp [weaken]
      obtain ⟨among, final⟩ := inductionHypothesis (weaken weakest stage) next
      refine ⟨among, ?_⟩
      rw [List.foldl_cons, final, kept, List.forall_mem_cons, and_assoc]

section Observed

variable (run campaign answer now) (attempts : List AttemptRecord)

/-- The receipts of the Base branch when nothing ends it early. -/
def baseReceipts : List ReceiptRecord :=
  (uniqueSubmittedAttempts attempts).filterMap (baseReceipt run campaign answer now)

variable {run campaign answer now attempts}

theorem mem_baseReceipts {recorded : ReceiptRecord} :
    recorded ∈ baseReceipts run campaign answer now attempts ↔
      ∃ attempt ∈ uniqueSubmittedAttempts attempts, ∃ stage observation,
        (baseOutcome answer attempt).observation = some (stage, observation) ∧
          recorded = baseReceiptRecord run campaign now attempt stage observation := by
  simp only [baseReceipts, List.mem_filterMap, baseReceipt, Option.map_eq_some_iff, Prod.exists]
  refine exists_congr fun attempt => and_congr_right fun _ => ?_
  refine exists_congr fun stage => exists_congr fun observation => and_congr_right fun _ => ?_
  exact eq_comm

/-- Receipts of the Base branch have distinct ids exactly when their sightings
are distinct. -/
theorem baseReceipts_ids_nodup :
    ((baseReceipts run campaign answer now attempts).map ReceiptRecord.id).Nodup ↔
      ((uniqueSubmittedAttempts attempts).filterMap (baseSighting answer)).Nodup := by
  have ids : (baseReceipts run campaign answer now attempts).map ReceiptRecord.id =
      ((uniqueSubmittedAttempts attempts).filterMap (baseSighting answer)).map
        fun sighting => .base sighting.1 sighting.2.1 sighting.2.2 := by
    rw [baseReceipts, List.map_filterMap, List.map_filterMap]
    refine List.filterMap_congr fun attempt _ => ?_
    rw [baseReceipt, baseSighting, Option.map_map, Option.map_map]
    rfl
  rw [ids]
  refine List.nodup_map_iff ?_
  rintro ⟨execution, block, stage⟩ ⟨otherExecution, otherBlock, otherStage⟩ same
  obtain ⟨rfl, rfl, rfl⟩ := ReceiptId.base.inj same
  rfl

theorem baseReceiptRecord_valid
    (valueNonneg : 0 ≤ campaign.mintPriceWei * campaign.quantity) (attempt : AttemptRecord)
    (stage : FinalityStage) (observation : BaseObservation) :
    ¬ (baseReceiptRecord run campaign now attempt stage observation).Invalid .base true := by
  have spend := observedSpend_nonneg valueNonneg observation.receipt.succeeded
    observation.receipt.gasUsed observation.receipt.effectiveGasPrice
  have cost := Int.add_nonneg (Int.add_nonneg spend
    (Int.natCast_nonneg observation.l1DataFeeWei)) (Int.natCast_nonneg observation.operatorFeeWei)
  rintro (state | ⟨-, refused | refused⟩ | unmined | hashless | unpaid)
  · revert state
    unfold baseReceiptRecord finalState
    split_ifs <;> simp
  · cases refused
  · cases refused
  · cases unmined
  · exact observation.receipt.blockHashPresent hashless
  · exact Int.not_le.mpr (unpaid _ rfl) cost

variable (run campaign answer now attempts)

/-- The result is final exactly when something is observed and all of it is final
and successful. -/
theorem baseResult_cases :
    (baseResult (baseReceipts run campaign answer now attempts) = .final ↔
      baseReceipts run campaign answer now attempts ≠ [] ∧
        ∀ attempt ∈ uniqueSubmittedAttempts attempts, ∀ stage observation,
          (baseOutcome answer attempt).observation = some (stage, observation) →
            stage = .ethereumFinal ∧ observation.receipt.succeeded = true) ∧
    baseResult (baseReceipts run campaign answer now attempts) ≠ .confirmed ∧
    baseResult (baseReceipts run campaign answer now attempts) ≠ .reorged ∧
    (baseResult (baseReceipts run campaign answer now attempts) = .failed →
      baseReceipts run campaign answer now attempts ≠ []) := by
  let receipts := baseReceipts run campaign answer now attempts
  obtain ⟨among, final⟩ := foldl_weaken (receipts.filterMap ReceiptRecord.finalityStage)
    .final (Or.inl rfl)
  unfold baseResult
  by_cases empty : receipts = []
  · rw [if_pos empty]
    simp [show baseReceipts run campaign answer now attempts = [] from empty]
  by_cases failed : ∃ receipt ∈ receipts,
      receipt.state = .failed ∧ receipt.finalityStage = some .ethereumFinal
  · rw [if_neg empty, if_pos failed]
    refine ⟨⟨by simp, ?_⟩, by simp, by simp, fun _ => empty⟩
    rintro ⟨-, allFinal⟩
    obtain ⟨recorded, member, state, -⟩ := failed
    obtain ⟨attempt, attemptMember, stage, observation, seen, rfl⟩ := mem_baseReceipts.mp member
    obtain ⟨isFinal, succeeded⟩ := allFinal attempt attemptMember stage observation seen
    simp [baseReceiptRecord, isFinal, finalState, succeeded] at state
  · rw [if_neg empty, if_neg failed]
    refine ⟨?_, ?_, ?_, fun _ => empty⟩
    · rw [final]
      constructor
      · rintro ⟨-, stages⟩
        refine ⟨empty, fun attempt member stage observation seen => ?_⟩
        have recordedMember :
            baseReceiptRecord run campaign now attempt stage observation ∈ receipts :=
          mem_baseReceipts.mpr ⟨attempt, member, stage, observation, seen, rfl⟩
        have known := (baseOutcome_cases answer attempt).2 stage observation seen
        have staged := stages stage (List.mem_filterMap.mpr ⟨_, recordedMember, rfl⟩)
        have isFinal : stage = .ethereumFinal := by
          cases stage with
          | unknown => exact absurd rfl known
          | soft => exact absurd rfl staged.1
          | posted => exact absurd rfl staged.2
          | ethereumFinal => rfl
        refine ⟨isFinal, ?_⟩
        by_contra reverted
        refine failed ⟨_, recordedMember, ?_, ?_⟩
        · simp [baseReceiptRecord, isFinal, finalState, reverted]
        · rw [baseReceiptRecord, isFinal]
      · rintro ⟨-, allFinal⟩
        refine ⟨rfl, fun stage stageMember => ?_⟩
        obtain ⟨recorded, member, ofStage⟩ := List.mem_filterMap.mp stageMember
        obtain ⟨attempt, attemptMember, observed, observation, seen, rfl⟩ :=
          mem_baseReceipts.mp member
        obtain ⟨rfl, -⟩ := allFinal attempt attemptMember observed observation seen
        obtain rfl := Option.some.inj ofStage
        simp
    · rcases among with is | is | is <;> rw [is] <;> simp
    · rcases among with is | is | is <;> rw [is] <;> simp

end Observed

theorem updateOf_base {attempts : List AttemptRecord}
    (ids : (attempts.map AttemptRecord.id).Nodup)
    (ofRun : ∀ attempt ∈ attempts, attempt.runId = run.id) :
    UpdateOf run (reconcileBase run campaign answer now attempts) := by
  have kept := uniqueSubmittedAttempts_unique attempts
  have updated : ∀ old new, baseAttempt answer old = some new →
      new.id = old.id ∧ new.runId = old.runId := by
    intro old new changed
    obtain ⟨seen, -, rfl⟩ := Option.map_eq_some_iff.mp changed
    exact ⟨rfl, rfl⟩
  unfold reconcileBase
  cases stop : baseStop answer attempts with
  | some update =>
      rw [baseStop] at stop
      simp only [stop]
      obtain ⟨attempt, -, stopped⟩ := List.exists_of_findSome?_eq_some stop
      obtain ⟨-, noAttempts, noReceipts⟩ := (baseOutcome_cases answer attempt).1 update stopped
      constructor <;> simp [noAttempts, noReceipts]
  | none =>
      rw [baseStop] at stop
      simp only [stop]
      constructor
      · exact (kept.ids ids).sublist
          (Table.filterMap_keys_sublist (fun old new changed => (updated old new changed).1) _)
      · intro attempt member
        obtain ⟨old, oldMember, changed⟩ := List.mem_filterMap.mp member
        rw [(updated old attempt changed).2]
        exact ofRun old (kept.known old oldMember)
      · intro recorded member
        obtain ⟨attempt, -, stage, observation, -, rfl⟩ := mem_baseReceipts.mp member
        rfl

/-- The Base branch is accepted exactly for coherent answers. -/
theorem base_accepted_iff
    (valueNonneg : 0 ≤ campaign.mintPriceWei * campaign.quantity)
    {attempts : List AttemptRecord} (nonempty : attempts ≠ []) :
    UpdateChecks .base attempts (reconcileBase run campaign answer now attempts) ↔
      BaseCoherent answer attempts := by
  cases stop : baseStop answer attempts with
  | some update =>
      have early : reconcileBase run campaign answer now attempts = update := by
        rw [baseStop] at stop
        simp only [reconcileBase, stop]
      have stopped := stop
      rw [baseStop] at stopped
      obtain ⟨attempt, -, ended⟩ := List.exists_of_findSome?_eq_some stopped
      obtain ⟨result, -, noReceipts⟩ := (baseOutcome_cases answer attempt).1 update ended
      rw [early]
      constructor
      · intro checks
        constructor
        · intro other same reorged
          rw [stop] at same
          obtain rfl := Option.some.inj same
          exact not_updateChecks_reorged reorged noReceipts checks
        · intro none
          rw [stop] at none
          cases none
        · intro none
          rw [stop] at none
          cases none
      · intro coherent
        rcases result with unknown | reorged
        · exact updateChecks_unknown unknown noReceipts
        · exact absurd reorged (coherent.canonical update stop)
  | none =>
      have all : reconcileBase run campaign answer now attempts =
          { result := baseResult (baseReceipts run campaign answer now attempts)
            attempts := (uniqueSubmittedAttempts attempts).filterMap (baseAttempt answer)
            receipts := baseReceipts run campaign answer now attempts
            reason := if baseReceipts run campaign answer now attempts = [] then
              some "Base receipt unavailable; outcome unresolved" else none } := by
        rw [baseStop] at stop
        simp only [reconcileBase, stop]
        rfl
      rw [all]
      obtain ⟨final, notConfirmed, notReorged, failed⟩ :=
        baseResult_cases run campaign answer now attempts
      have observed : baseReceipts run campaign answer now attempts ≠ [] ↔
          ∃ attempt ∈ uniqueSubmittedAttempts attempts,
            (baseOutcome answer attempt).observation ≠ none := by
        constructor
        · intro some
          obtain ⟨recorded, member⟩ := List.exists_mem_of_ne_nil _ some
          obtain ⟨attempt, attemptMember, stage, observation, seen, -⟩ := mem_baseReceipts.mp member
          exact ⟨attempt, attemptMember, by simp [seen]⟩
        · rintro ⟨attempt, member, seen⟩
          obtain ⟨⟨stage, observation⟩, seen⟩ := Option.ne_none_iff_exists'.mp seen
          exact List.ne_nil_of_mem
            (mem_baseReceipts.mpr ⟨attempt, member, stage, observation, seen, rfl⟩)
      constructor
      · intro checks
        constructor
        · intro update same
          rw [stop] at same
          cases same
        · exact fun _ => baseReceipts_ids_nodup.mp checks.distinct
        · intro _ some allFinal attempt member
          have isFinal := final.mpr ⟨observed.mpr some, allFinal⟩
          obtain ⟨-, complete⟩ := checks.complete (Or.inr (Or.inl isFinal))
          obtain ⟨recorded, recordedMember, same⟩ := complete attempt member
          obtain ⟨other, otherMember, stage, observation, seen, rfl⟩ :=
            mem_baseReceipts.mp recordedMember
          exact ⟨other, otherMember, by simp [seen], same⟩
      · intro coherent
        constructor
        · exact baseReceipts_ids_nodup.mpr (coherent.distinct stop)
        · intro recorded member
          obtain ⟨attempt, -, stage, observation, -, rfl⟩ := mem_baseReceipts.mp member
          exact baseReceiptRecord_valid valueNonneg attempt stage observation
        · intro contradiction
          cases contradiction
        · rintro (confirmed | isFinal | reorged)
          · exact absurd confirmed notConfirmed
          · refine ⟨nonempty, fun attempt member => ?_⟩
            obtain ⟨some, allFinal⟩ := final.mp isFinal
            obtain ⟨other, otherMember, seen, same⟩ :=
              coherent.complete stop (observed.mp some) allFinal attempt member
            obtain ⟨⟨stage, observation⟩, seen⟩ := Option.ne_none_iff_exists'.mp seen
            exact ⟨_, mem_baseReceipts.mpr ⟨other, otherMember, stage, observation, seen, rfl⟩,
              same⟩
          · exact absurd reorged notReorged
        · intro isFinal
          refine ⟨by simp, fun recorded member => ?_⟩
          obtain ⟨attempt, attemptMember, stage, observation, seen, rfl⟩ :=
            mem_baseReceipts.mp member
          obtain ⟨rfl, succeeded⟩ := (final.mp isFinal).2 attempt attemptMember stage observation seen
          refine ⟨?_, rfl, by simp⟩
          simp [baseReceiptRecord, finalState, succeeded]
        · exact fun confirmed => absurd confirmed notConfirmed
        · exact fun reorged => absurd reorged notReorged
        · exact fun isFailed _ => failed isFailed

end Base

end MintBot
