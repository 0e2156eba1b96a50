import MintBot.Adapter.RobinhoodReconcile

/-!
# The verdict of the Robinhood branch

Attempts of one execution and nonce form a group, of which at most one can be mined.  The
verdict is read off the groups: what stands final, what is proven, and what was paid.
-/

namespace MintBot

/-- Attempts of one execution and nonce replace each other. -/
def AttemptRecord.SameGroup (attempt other : AttemptRecord) : Prop :=
  attempt.executionId = other.executionId ∧ attempt.nonce = other.nonce

/-- The hash of an attempt has a complete receipt. -/
def HasReceipt (answers : ChainAnswers) (submitted : List AttemptRecord)
    (attempt : AttemptRecord) : Prop :=
  completeReceipt answers.robinhoodReceipt submitted attempt ≠ none

/-- A receipt is canonical and final on Ethereum, and its gas for L1 data is proven. -/
structure StandsFinal (answers : ChainAnswers) (attempt : AttemptRecord)
    (receipt : ObservedReceipt) : Prop where
  observed : ∃ observation, answers.robinhoodFinality attempt = some observation ∧
    observation.canonical = some true ∧ observation.stage = .ethereumFinal ∧
      observation.ready = true
  l1 : ∃ l1 ∈ receipt.gasUsedForL1, l1 ≤ receipt.gasUsed

/-- A complete receipt that left the chain. -/
def LeftChain (answers : ChainAnswers) (attempt : AttemptRecord) : Prop :=
  ∃ observation, answers.robinhoodFinality attempt = some observation ∧
    observation.canonical = some false

/-- The mint of an attempt succeeded and is final. -/
def MintedFinal (answers : ChainAnswers) (submitted : List AttemptRecord)
    (attempt : AttemptRecord) : Prop :=
  ∃ receipt, completeReceipt answers.robinhoodReceipt submitted attempt = some receipt ∧
    StandsFinal answers attempt receipt ∧ receipt.succeeded = true

/-- What became of an attempt is proven. -/
def ProvenOutcome (answers : ChainAnswers) (submitted : List AttemptRecord)
    (attempt : AttemptRecord) : Prop :=
  ∃ receipt, completeReceipt answers.robinhoodReceipt submitted attempt = some receipt ∧
    (StandsFinal answers attempt receipt ∨ LeftChain answers attempt)

/-- Each group has an attempt with a property, and so has every other one with a receipt. -/
def EveryGroup (answers : ChainAnswers) (submitted : List AttemptRecord)
    (p : AttemptRecord → Prop) : Prop :=
  ∀ attempt ∈ submitted,
    (∃ other ∈ submitted, other.SameGroup attempt ∧ p other) ∧
      (HasReceipt answers submitted attempt → p attempt)

/-- What a final receipt carries, for the attempt and the receipt that it was observed from. -/
structure Charges (campaign : Campaign) (attempt : AttemptRecord) (observed : ObservedReceipt)
    (recorded : ReceiptRecord) : Prop where
  attempt : recorded.transactionAttemptId = some attempt.id
  gasUsed : recorded.gasUsed = some (Int.ofNat observed.gasUsed)
  effectiveGasPrice : recorded.effectiveGasPrice = some (Int.ofNat observed.effectiveGasPrice)
  confirmed : recorded.state = .confirmed ↔ observed.succeeded = true
  spend : recorded.actualSpendWei = some
    ((if observed.succeeded then campaign.mintPriceWei * campaign.quantity else 0) +
      Int.ofNat (observed.gasUsed * observed.effectiveGasPrice))

section RobinhoodVerdict

variable {answers : ChainAnswers} {run : RunRecord} {campaign : Campaign} {now : Time}
  {submitted : List AttemptRecord} {attempt : AttemptRecord}

/-! ## Outcomes and what was observed -/

theorem outcome_of_leftChain {receipt : ObservedReceipt}
    (complete : completeReceipt answers.robinhoodReceipt submitted attempt = some receipt)
    (left : LeftChain answers attempt) :
    robinhoodOutcome answers submitted attempt = .reorged receipt := by
  obtain ⟨observation, finality, canonical⟩ := left
  unfold robinhoodOutcome
  rw [complete, finality]
  dsimp only
  rw [canonical]

theorem outcome_of_standsFinal {receipt : ObservedReceipt}
    (complete : completeReceipt answers.robinhoodReceipt submitted attempt = some receipt)
    (stands : StandsFinal answers attempt receipt) :
    robinhoodOutcome answers submitted attempt =
      if receipt.succeeded then .final receipt else .failed receipt := by
  obtain ⟨⟨observation, finality, canonical, stage, ready⟩, l1⟩ := stands
  unfold robinhoodOutcome
  rw [complete, finality]
  dsimp only
  rw [canonical]
  dsimp only
  rw [if_neg (not_not.mpr ⟨stage, ready⟩), if_neg (not_not.mpr l1)]

/-- Anything else is not recorded. -/
theorem outcome_unrecorded
    (unsettled : ∀ receipt, completeReceipt answers.robinhoodReceipt submitted attempt =
      some receipt → ¬ LeftChain answers attempt ∧ ¬ StandsFinal answers attempt receipt) :
    (robinhoodOutcome answers submitted attempt).recorded = none := by
  unfold robinhoodOutcome
  split
  · split
    · rfl
    · rfl
  rename_i receipt complete
  split
  · rfl
  rename_i observation finality
  split
  · rfl
  · rename_i canonical
    exact absurd ⟨observation, finality, canonical⟩ (unsettled receipt complete).1
  · rename_i canonical
    split
    · rfl
    rename_i final
    split
    · rfl
    rename_i l1
    have settled := not_not.mp final
    exact absurd ⟨⟨observation, finality, canonical, settled⟩, not_not.mp l1⟩
      (unsettled receipt complete).2

/-- An outcome is recorded exactly for a receipt that left the chain or stands final. -/
theorem recorded_iff {receipt : ObservedReceipt} {state : ExecutionState} :
    (robinhoodOutcome answers submitted attempt).recorded = some (receipt, state) ↔
      completeReceipt answers.robinhoodReceipt submitted attempt = some receipt ∧
        ((state = .reorged ∧ LeftChain answers attempt) ∨
          (state = finalState receipt.succeeded ∧ StandsFinal answers attempt receipt)) := by
  constructor
  · intro recorded
    by_cases settled : ∃ found, completeReceipt answers.robinhoodReceipt submitted attempt =
        some found ∧ (LeftChain answers attempt ∨ StandsFinal answers attempt found)
    · obtain ⟨found, complete, left | stands⟩ := settled
      · rw [outcome_of_leftChain complete left] at recorded
        cases recorded
        exact ⟨complete, .inl ⟨rfl, left⟩⟩
      · rw [outcome_of_standsFinal complete stands] at recorded
        split at recorded
        · rename_i succeeded
          cases recorded
          exact ⟨complete, .inr ⟨by rw [succeeded]; rfl, stands⟩⟩
        · rename_i reverted
          cases recorded
          exact ⟨complete, .inr ⟨by rw [Bool.eq_false_of_not_eq_true reverted]; rfl, stands⟩⟩
    · rw [outcome_unrecorded] at recorded
      · cases recorded
      · intro found complete
        exact not_or.mp fun either => settled ⟨found, complete, either⟩
  · rintro ⟨complete, (⟨rfl, left⟩ | ⟨rfl, stands⟩)⟩
    · rw [outcome_of_leftChain complete left]
      rfl
    · rw [outcome_of_standsFinal complete stands]
      cases receipt.succeeded <;> rfl

/-! ## The verdict -/

theorem isFinal_iff : (robinhoodOutcome answers submitted attempt).isFinal = true ↔
    MintedFinal answers submitted attempt := by
  have final : (robinhoodOutcome answers submitted attempt).isFinal = true ↔ ∃ receipt,
      (robinhoodOutcome answers submitted attempt).recorded = some (receipt, .confirmed) := by
    cases robinhoodOutcome answers submitted attempt <;>
      simp [RobinhoodOutcome.isFinal, RobinhoodOutcome.recorded]
  rw [final, MintedFinal]
  refine exists_congr fun receipt => ?_
  rw [recorded_iff]
  refine and_congr_right fun _ => ?_
  cases succeeded : receipt.succeeded <;> simp [finalState]

theorem recorded_ne_none_iff : (robinhoodOutcome answers submitted attempt).recorded ≠ none ↔
    ProvenOutcome answers submitted attempt := by
  rw [Option.ne_none_iff_exists']
  constructor
  · rintro ⟨⟨receipt, state⟩, recorded⟩
    obtain ⟨complete, ⟨-, left⟩ | ⟨-, stands⟩⟩ := recorded_iff.mp recorded
    · exact ⟨receipt, complete, .inr left⟩
    · exact ⟨receipt, complete, .inl stands⟩
  · rintro ⟨receipt, complete, stands | left⟩
    · exact ⟨(receipt, _), recorded_iff.mpr ⟨complete, .inr ⟨rfl, stands⟩⟩⟩
    · exact ⟨(receipt, _), recorded_iff.mpr ⟨complete, .inl ⟨rfl, left⟩⟩⟩

theorem completeReceipt_congr {other : AttemptRecord}
    (same : attempt.hash.map toLowerCase = other.hash.map toLowerCase) :
    completeReceipt answers.robinhoodReceipt submitted attempt =
      completeReceipt answers.robinhoodReceipt submitted other := by
  unfold completeReceipt
  rw [same]

/-- Attempts that are not replaced all have a property of those with a receipt exactly when
every group has it. -/
theorem allUnreplaced_iff {p : RobinhoodOutcome → Bool} {q : AttemptRecord → Prop}
    (holds : ∀ attempt, p (robinhoodOutcome answers submitted attempt) = true ↔ q attempt)
    (seen : ∀ attempt, q attempt → HasReceipt answers submitted attempt) :
    AllUnreplaced answers submitted p ↔ EveryGroup answers submitted q := by
  constructor
  · intro all attempt member
    have own : HasReceipt answers submitted attempt → q attempt := by
      intro receipt
      rcases all attempt member with replaced | held
      · exact absurd (robinhoodOutcome_isReplaced.mp replaced).1 receipt
      · exact (holds attempt).mp held
    refine ⟨?_, own⟩
    rcases all attempt member with replaced | held
    · obtain ⟨-, other, otherMember, execution, nonce, -, mined⟩ :=
        robinhoodOutcome_isReplaced.mp replaced
      refine ⟨other, otherMember, ⟨execution, nonce⟩, ?_⟩
      rcases all other otherMember with again | heldOther
      · exact absurd (robinhoodOutcome_isReplaced.mp again).1 mined
      · exact (holds other).mp heldOther
    · exact ⟨attempt, member, ⟨rfl, rfl⟩, (holds attempt).mp held⟩
  · intro groups attempt member
    obtain ⟨⟨other, otherMember, group, held⟩, own⟩ := groups attempt member
    by_cases receipt : HasReceipt answers submitted attempt
    · exact .inr ((holds attempt).mpr (own receipt))
    · left
      have none := not_not.mp receipt
      refine robinhoodOutcome_isReplaced.mpr ⟨none, other, otherMember, group.1, group.2, ?_,
        seen other held⟩
      intro same
      rw [HasReceipt, ← completeReceipt_congr same] at receipt
      exact receipt (seen other held)

/-- A terminal verdict leaves no attempt without an outcome on the chain. -/
theorem recorded_of_terminal (terminal : robinhoodResult answers submitted = .final ∨
      robinhoodResult answers submitted = .failed ∨
        robinhoodResult answers submitted = .reorged) :
    AllUnreplaced answers submitted fun outcome => outcome.recorded.isSome := by
  obtain ⟨final, reorged, -, -⟩ := @robinhoodResult_cases answers submitted
  rcases terminal with isFinal | isFailed | isReorged
  · intro attempt member
    refine (final.mp isFinal attempt member).imp id ?_
    cases robinhoodOutcome answers submitted attempt <;>
      simp [RobinhoodOutcome.isFinal, RobinhoodOutcome.recorded]
  · unfold robinhoodResult at isFailed
    simp only [countOutcomes_pos] at isFailed
    split_ifs at isFailed with missing reorged all pending soft failed
    intro attempt member
    have notMissing := fun holds => missing ⟨attempt, member, holds⟩
    have notPending := fun holds => pending ⟨attempt, member, holds⟩
    revert notMissing notPending
    cases robinhoodOutcome answers submitted attempt <;>
      simp [RobinhoodOutcome.isMissing, RobinhoodOutcome.isPending, RobinhoodOutcome.isReplaced,
        RobinhoodOutcome.recorded]
  · intro attempt member
    refine ((reorged.mp isReorged).1 attempt member).imp id ?_
    cases robinhoodOutcome answers submitted attempt <;>
      simp [RobinhoodOutcome.isReorged, RobinhoodOutcome.recorded]

/-! ## Receipts -/

theorem charges_of_recorded {receipt : ObservedReceipt} {state : ExecutionState}
    (recorded : (robinhoodOutcome answers submitted attempt).recorded = some (receipt, state))
    (terminal : state = .confirmed ∨ state = .failed) :
    Charges campaign attempt receipt
      (robinhoodReceiptRecord run campaign now attempt receipt state) := by
  have settled : state = finalState receipt.succeeded := by
    rcases (recorded_iff.mp recorded).2 with ⟨rfl, -⟩ | ⟨settled, -⟩
    · rcases terminal with impossible | impossible
      · cases impossible
      · cases impossible
    · exact settled
  have notReorged : state ≠ .reorged := by
    rcases terminal with rfl | rfl
    · exact ExecutionState.noConfusion
    · exact ExecutionState.noConfusion
  exact
    { attempt := rfl
      gasUsed := rfl
      effectiveGasPrice := rfl
      confirmed := by
        change state = .confirmed ↔ _
        rw [settled]
        cases receipt.succeeded <;> simp [finalState]
      spend := by simp [robinhoodReceiptRecord, notReorged, observedSpend] }

/-- Two submissions of one group with the same hash are one. -/
theorem eq_of_sameGroup (distinct : (submitted.map submissionKey).Nodup)
    (hashed : ∀ attempt ∈ submitted, attempt.Submitted) {other : AttemptRecord}
    (member : attempt ∈ submitted) (otherMember : other ∈ submitted)
    (group : attempt.SameGroup other)
    (same : attempt.hash.map toLowerCase = other.hash.map toLowerCase) : attempt = other := by
  refine List.inj_on_of_nodup_map distinct member otherMember ?_
  have someHash : ∀ row ∈ submitted, row.hash ≠ none := by
    intro row rowMember missing
    exact (hashed row rowMember).1 (by rw [missing]; rfl)
  simp [submissionKey, group.1, group.2, same, someHash _ member, someHash _ otherMember]

/-- The receipts with the attempts that they are for. -/
def observedReceipts (answers : ChainAnswers) (run : RunRecord) (campaign : Campaign) (now : Time)
    (submitted : List AttemptRecord) : List (AttemptRecord × ReceiptRecord) :=
  submitted.filterMap fun attempt =>
    (robinhoodReceipt answers submitted run campaign now attempt).map (attempt, ·)

theorem observedReceipts_receipts :
    (observedReceipts answers run campaign now submitted).map Prod.snd =
      submitted.filterMap (robinhoodReceipt answers submitted run campaign now) := by
  rw [observedReceipts, List.map_filterMap]
  refine List.filterMap_congr fun attempt _ => ?_
  rw [Option.map_map]
  exact Option.map_id' ..

/-- At most one hash of a group has a receipt. -/
def OneMined (answers : ChainAnswers) (submitted : List AttemptRecord) : Prop :=
  ∀ attempt ∈ submitted, ∀ other ∈ submitted, attempt.SameGroup other →
    HasReceipt answers submitted attempt → HasReceipt answers submitted other →
      attempt.hash.map toLowerCase = other.hash.map toLowerCase

theorem mem_observedReceipts {pair : AttemptRecord × ReceiptRecord}
    (member : pair ∈ observedReceipts answers run campaign now submitted) :
    pair.1 ∈ submitted ∧ HasReceipt answers submitted pair.1 ∧ ∃ receipt state,
      pair.2 = robinhoodReceiptRecord run campaign now pair.1 receipt state := by
  obtain ⟨attempt, attemptMember, paired⟩ := List.mem_filterMap.mp member
  rw [robinhoodReceipt_eq, Option.map_map, Option.map_eq_some_iff] at paired
  obtain ⟨⟨receipt, state⟩, recorded, rfl⟩ := paired
  have complete := (recorded_iff.mp recorded).1
  refine ⟨attemptMember, ?_, receipt, state, rfl⟩
  intro missing
  cases missing.symm.trans complete

theorem observedReceipts_apart (distinct : (submitted.map submissionKey).Nodup)
    (hashed : ∀ attempt ∈ submitted, attempt.Submitted) (one : OneMined answers submitted) :
    (observedReceipts answers run campaign now submitted).Pairwise fun pair other =>
      ¬ pair.1.SameGroup other.1 := by
  have apart : ((observedReceipts answers run campaign now submitted).map Prod.fst).Nodup := by
    have kept : ((observedReceipts answers run campaign now submitted).map Prod.fst).Sublist
        (submitted.map id) := by
      refine Table.filterMap_keys_sublist ?_ submitted
      intro attempt pair paired
      obtain ⟨receipt, -, rfl⟩ := Option.map_eq_some_iff.mp paired
      rfl
    rw [List.map_id] at kept
    exact (List.Nodup.of_map _ distinct).sublist kept
  rw [List.Nodup, List.pairwise_map] at apart
  refine apart.imp_of_mem ?_
  intro pair other member otherMember different group
  obtain ⟨known, mined, -⟩ := mem_observedReceipts member
  obtain ⟨otherKnown, otherMined, -⟩ := mem_observedReceipts otherMember
  exact different (eq_of_sameGroup distinct hashed known otherKnown group
    (one _ known _ otherKnown group mined otherMined))

/-! ## What the branch returns -/

/-- The verdict and the receipts, in terms of what was observed for the groups. -/
structure RobinhoodVerdict (answers : ChainAnswers) (run : RunRecord) (campaign : Campaign)
    (now : Time) (attempts : List AttemptRecord) (update : ReconciliationUpdate) : Prop where
  final_iff : update.result = .final ↔ (∃ attempt ∈ attempts, attempt.Submitted) ∧
    EveryGroup answers (robinhoodSubmissions attempts)
      (MintedFinal answers (robinhoodSubmissions attempts))
  proven : update.result = .final ∨ update.result = .failed ∨ update.result = .reorged →
    EveryGroup answers (robinhoodSubmissions attempts)
      (ProvenOutcome answers (robinhoodSubmissions attempts))
  charged : ∀ recorded ∈ update.receipts, recorded.state = .confirmed ∨ recorded.state = .failed →
    ∃ attempt ∈ robinhoodSubmissions attempts, ∃ observed,
      completeReceipt answers.robinhoodReceipt (robinhoodSubmissions attempts) attempt =
        some observed ∧ Charges campaign attempt observed recorded
  /-- Each receipt is for an attempt, and no two are for attempts of one group. -/
  alone : OneMined answers (robinhoodSubmissions attempts) →
    ∃ observed : List (AttemptRecord × ReceiptRecord),
      observed.map Prod.snd = update.receipts ∧
      (∀ pair ∈ observed, pair.1 ∈ robinhoodSubmissions attempts ∧
        pair.2.transactionAttemptId = some pair.1.id ∧
        pair.2.executionId = pair.1.executionId) ∧
      observed.Pairwise fun pair other => ¬ pair.1.SameGroup other.1

theorem robinhoodSubmissions_submitted {attempts : List AttemptRecord} :
    ∀ attempt ∈ robinhoodSubmissions attempts, attempt.Submitted := by
  intro attempt member
  have known := (uniqueSubmittedAttempts_unique _).known attempt member
  simpa using (List.mem_filter.mp known).2

theorem robinhoodSubmissions_ne_nil {attempts : List AttemptRecord} :
    robinhoodSubmissions attempts ≠ [] ↔ ∃ attempt ∈ attempts, attempt.Submitted := by
  constructor
  · intro some
    obtain ⟨attempt, member⟩ := List.exists_mem_of_ne_nil _ some
    obtain ⟨other, otherMember, submitted, -⟩ :=
      robinhoodSubmissions_execution.mp ⟨attempt, member, rfl⟩
    exact ⟨other, otherMember, submitted⟩
  · rintro ⟨attempt, member, submitted⟩
    obtain ⟨other, otherMember, -⟩ :=
      robinhoodSubmissions_execution.mpr ⟨attempt, member, submitted, rfl⟩
    exact List.ne_nil_of_mem otherMember

end RobinhoodVerdict

end MintBot
