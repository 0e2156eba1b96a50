import MintBot.Coordinator.Record
import MintBot.Library.Gate
import MintBot.Store.ChainSwitch
import MintBot.Store.Operation

/-!
# What a switched-off chain refuses

The switch of a chain is a gate in front of the writes about sent transactions.
Two of them look at it: a receipt that is stored as confirmed, and a settlement
that rests on a confirmed receipt.  Everything else is recorded behind a closed
gate as it is behind an open one.
-/

namespace MintBot

open Fallible Gate

/-! ## Writes that do not look at the switch -/

theorem repositoryTransitionExecution_blind (id : ExecutionId) (state : LifecycleState) (db : Db) :
    repositoryTransitionExecution db.switchedOn id state =
      (repositoryTransitionExecution db id state).map Db.switchedOn := by
  simp only [repositoryTransitionExecution, map_bind]
  rfl

theorem transitionExecutionSafe_blind (id : ExecutionId) (target : LifecycleState) (db : Db) :
    transitionExecutionSafe db.switchedOn id target =
      (transitionExecutionSafe db id target).map Db.switchedOn := by
  have sameRow : db.switchedOn.execution id = db.execution id := rfl
  unfold transitionExecutionSafe
  rw [sameRow]
  cases db.execution id with
  | none => rfl
  | some row =>
      dsimp only
      split
      · rfl
      · split
        · rfl
        · split
          · rw [map_bind, repositoryTransitionExecution_blind]
            cases repositoryTransitionExecution db id .submitted with
            | error failure => rfl
            | ok submitted => exact repositoryTransitionExecution_blind id target submitted
          · exact repositoryTransitionExecution_blind id target db

theorem recordAttempt_blind (record : TransactionAttemptRow) (db : Db) :
    recordAttempt db.switchedOn record = (recordAttempt db record).map Db.switchedOn := by
  simp only [recordAttempt, map_bind]
  rfl

theorem persistAttempt_blind (attempt : AttemptRecord) (db : Db) :
    persistAttempt db.switchedOn attempt = (persistAttempt db attempt).map Db.switchedOn := by
  simp only [persistAttempt, map_bind]
  refine congrArg _ (funext fun intentId => ?_)
  rw [← map_bind]
  refine blind_bind (fun db => recordAttempt db (attempt.row intentId)) _
    (recordAttempt_blind (attempt.row intentId)) (fun recorded => ?_) db
  by_cases replaces : attempt.replacementOfId ≠ none
  · rw [if_pos replaces, if_pos replaces]
    rfl
  · rw [if_neg replaces, if_neg replaces]
    exact transitionExecutionSafe_blind attempt.executionId (attemptTarget attempt.state) recorded

theorem persistReconciliation_blind (record : ReconciliationRecord) (db : Db) :
    persistReconciliation db.switchedOn record =
      (persistReconciliation db record).map Db.switchedOn := by
  have sameAttempts : db.switchedOn.readAttempts = db.readAttempts := rfl
  unfold persistReconciliation
  rw [sameAttempts]
  cases record.attemptId.bind fun id => db.readAttempts.find? fun item => item.id = id with
  | none => rfl
  | some attempt =>
      dsimp only
      cases attempt.hash with
      | none => rfl
      | some hash =>
          cases attempt.nonce with
          | none => rfl
          | some nonce =>
              simp only [recordReconciliation, map_bind]
              rfl

theorem persistRun_blind (run : RunRecord) (prior : Option RunRecord) (db : Db) :
    persistRun db.switchedOn run prior = (persistRun db run prior).map Db.switchedOn := by
  unfold persistRun
  cases prior with
  | none =>
      simp only [map_bind]
      rfl
  | some prior =>
      dsimp only
      split <;> rfl

theorem persistEvent_blind (event : EventRecord) (db : Db) :
    persistEvent db.switchedOn event = (persistEvent db event).map Db.switchedOn := by
  simp only [persistEvent, map_bind]
  rfl

theorem transitionReservation_blind (id : ReservationId) (status : ReservationStatus) (db : Db) :
    transitionReservation db.switchedOn id status =
      (transitionReservation db id status).map Db.switchedOn := by
  simp only [transitionReservation, map_bind]
  rfl

theorem transitionExecution_blind (id : ExecutionId) (state : LifecycleState) (db : Db) :
    transitionExecution db.switchedOn id state =
      (transitionExecution db id state).map Db.switchedOn := by
  have sameRow : db.switchedOn.execution id = db.execution id := rfl
  unfold transitionExecution
  rw [sameRow]
  cases db.execution id with
  | none => rfl
  | some row =>
      dsimp only
      split
      · rfl
      · exact repositoryTransitionExecution_blind id state db

theorem abortExecution_blind (row : ExecutionRow) (db : Db) :
    abortExecution db.switchedOn row = (abortExecution db row).map Db.switchedOn := by
  unfold abortExecution
  refine blind_bind (fun db => moveToAborted db row) _ (fun db => ?_) (fun _ => rfl) db
  unfold moveToAborted
  split
  · exact transitionExecution_blind row.id .aborted db
  · rfl

theorem abortExecutions_blind (rows : List ExecutionRow) (db : Db) :
    rows.foldlM abortExecution db.switchedOn =
      (rows.foldlM abortExecution db).map Db.switchedOn :=
  blind_foldlM abortExecution_blind rows db

theorem abortRemaining_blind (db : Db) :
    abortRemaining db.switchedOn = (abortRemaining db).map Db.switchedOn := by
  let rows := db.executions.filter fun row => row.state ∈ abortableStates ∧ ¬ db.Submitted row.id
  show rows.foldlM abortExecution db.switchedOn >>= _ = (rows.foldlM abortExecution db >>= _).map _
  rw [abortExecutions_blind]
  cases rows.foldlM abortExecution db with
  | error failure => rfl
  | ok released =>
      simp only [persistEvent, map_bind]
      rfl

theorem abortRunIfUnsent_blind (runId : RunId) (db : Db) :
    (abortRunIfUnsent db.switchedOn runId).map Prod.fst =
      ((abortRunIfUnsent db runId).map Prod.fst).map Db.switchedOn := by
  have sameRun : db.switchedOn.run runId = db.run runId := rfl
  have sameRows : db.switchedOn.executions = db.executions := rfl
  have sameAttempted : ∀ row, db.switchedOn.Attempted row = db.Attempted row := fun _ => rfl
  unfold abortRunIfUnsent
  rw [sameRun]
  split
  · rfl
  · simp only [sameRows, sameAttempted]
    split
    · rfl
    · rw [abortExecutions_blind]
      cases (db.executions.filter fun row => row.runId = runId).foldlM abortExecution db with
      | error failure => rfl
      | ok released =>
          simp only [persistEvent, map_bind, bind_assoc]
          rfl

/-! ## Writes that look at the switch -/

namespace Db

/-- The newest receipt of an execution, when it is a confirmed one, belongs to a
chain that is on. -/
def ConfirmedOn (db : Db) (executionId : ExecutionId) : Prop :=
  ∀ receipt ∈ db.latestReceipt executionId, receipt.status = .confirmed →
    ∀ attempt ∈ db.attempt receipt.transactionAttemptId, db.ChainOn attempt

/-- The newest reconciliation of an execution is final or reorged, and no receipt
was observed after it. -/
def Reconciled (db : Db) (executionId : ExecutionId) : Prop :=
  ∃ record ∈ db.latestReconciliation executionId,
    (record.state = .final ∨ record.state = .reorged) ∧
      ∀ receipt ∈ db.receipts, receipt.executionId = executionId →
        receipt.observedAt ≤ record.checkedAt

/-- A reserved reservation is settled by a reconciliation, or its chain is on
when it rests on a confirmed receipt. -/
def SettlesOn (db : Db) (id : ReservationId) : Prop :=
  ∀ row ∈ db.reservation id, row.status = .reserved →
    db.Reconciled row.executionId ∨ db.ConfirmedOn row.executionId

/-- A receipt that is stored as confirmed belongs to a chain that is on. -/
def ConfirmsOn (db : Db) (receipt : ReceiptRecord) : Prop :=
  ∀ chainId ∈ db.executionChain receipt.executionId,
    receipt.persistedStatus chainId = .confirmed →
      ∀ linked ∈ db.linkedAttempt receipt, ∀ attempt ∈ db.attempt linked.id, db.ChainOn attempt

theorem receiptAccepted_iff (db : Db) (row : TransactionReceiptRow) :
    db.ReceiptAccepted row ↔ db.switchedOn.ReceiptAccepted row ∧
      (row.status = .confirmed →
        ∀ attempt ∈ db.attempt row.transactionAttemptId, db.ChainOn attempt) := by
  constructor
  · rintro ⟨amounts, ⟨attempt, found, sameHash, sameExecution, enabled⟩, finality, fresh⟩
    refine ⟨⟨amounts, ⟨attempt, found, sameHash, sameExecution, fun confirmed => ?_⟩, finality,
      fresh⟩, ?_⟩
    · exact ((enabledFinality_iff db attempt row.finalityStage).mp (enabled confirmed)).1
    · intro confirmed other otherFound
      obtain rfl := Option.some.inj (found.symm.trans otherFound)
      exact ((enabledFinality_iff db attempt row.finalityStage).mp (enabled confirmed)).2
  · rintro ⟨⟨amounts, ⟨attempt, found, sameHash, sameExecution, enabled⟩, finality, fresh⟩, on⟩
    refine ⟨amounts, ⟨attempt, found, sameHash, sameExecution, fun confirmed => ?_⟩, finality,
      fresh⟩
    exact (enabledFinality_iff db attempt row.finalityStage).mpr
      ⟨enabled confirmed, on confirmed attempt found⟩

theorem settlementEvidence_iff (db : Db) (executionId : ExecutionId) :
    db.SettlementEvidence executionId ↔ db.switchedOn.SettlementEvidence executionId ∧
      (db.Reconciled executionId ∨ db.ConfirmedOn executionId) := by
  constructor
  · rintro (⟨receipt, latest, confirmed, attempt, found, enabled⟩ | ⟨receipt, latest, closed⟩ |
      reconciled)
    · obtain ⟨open_, on⟩ := (enabledFinality_iff db attempt receipt.finalityStage).mp enabled
      refine ⟨Or.inl ⟨receipt, latest, confirmed, attempt, found, open_⟩, Or.inr ?_⟩
      intro other otherLatest _ otherAttempt otherFound
      obtain rfl := Option.some.inj (latest.symm.trans otherLatest)
      obtain rfl := Option.some.inj (found.symm.trans otherFound)
      exact on
    · refine ⟨Or.inr (Or.inl ⟨receipt, latest, closed⟩), Or.inr ?_⟩
      intro other otherLatest confirmed
      obtain rfl := Option.some.inj (latest.symm.trans otherLatest)
      simp [confirmed] at closed
    · exact ⟨Or.inr (Or.inr reconciled), Or.inl reconciled⟩
  · rintro ⟨⟨receipt, latest, confirmed, attempt, found, enabled⟩ | closed | reconciled, on⟩
    · rcases on with reconciled | on
      · exact Or.inr (Or.inr reconciled)
      · exact Or.inl ⟨receipt, latest, confirmed, attempt, found,
          (enabledFinality_iff db attempt receipt.finalityStage).mpr
            ⟨enabled, on receipt latest confirmed attempt found⟩⟩
    · exact Or.inr (Or.inl closed)
    · exact Or.inr (Or.inr reconciled)

end Db

theorem persistable_iff {db : Db} {receipt : ReceiptRecord} {chainId : ChainId}
    {row : TransactionReceiptRow} (persistable : receipt.Persistable db.switchedOn chainId row) :
    receipt.Persistable db chainId row ↔ db.ConfirmsOn receipt := by
  obtain ⟨attempt, txHash, blockNumber, blockHash, linked, sent, present, numbered, hashed,
    hashPresent, rfl⟩ := persistable.facts
  have chain : db.executionChain receipt.executionId = some chainId := persistable.chain
  have linkedHere : db.linkedAttempt receipt = some attempt := linked
  constructor
  · intro closed otherChain otherFound confirmed other otherLinked
    obtain rfl := Option.some.inj (chain.symm.trans otherFound)
    obtain rfl := Option.some.inj (linkedHere.symm.trans otherLinked)
    exact ((db.receiptAccepted_iff _).mp closed.accepted).2 confirmed
  · intro on
    refine ⟨chain, ⟨attempt, txHash, blockNumber, blockHash, linked, sent, present, numbered,
      hashed, hashPresent, rfl⟩, persistable.spend, (db.receiptAccepted_iff _).mpr
        ⟨persistable.accepted, fun confirmed => ?_⟩⟩
    exact on chainId chain confirmed attempt linkedHere

theorem ReceiptRecord.Persistable.opened {db : Db} {receipt : ReceiptRecord} {chainId : ChainId}
    {row : TransactionReceiptRow} (persistable : receipt.Persistable db chainId row) :
    receipt.Persistable db.switchedOn chainId row :=
  ⟨persistable.chain, persistable.facts, persistable.spend,
    ((db.receiptAccepted_iff row).mp persistable.accepted).1⟩

/-- A receipt is stored as one row. -/
theorem ReceiptRecord.Persistable.unique {db : Db} {receipt : ReceiptRecord}
    {chainId otherChain : ChainId} {row otherRow : TransactionReceiptRow}
    (persistable : receipt.Persistable db chainId row)
    (other : receipt.Persistable db otherChain otherRow) :
    chainId = otherChain ∧ row = otherRow := by
  obtain rfl := Option.some.inj (persistable.chain.symm.trans other.chain)
  obtain ⟨attempt, txHash, blockNumber, blockHash, linked, sent, -, numbered, hashed, -, rfl⟩ :=
    persistable.facts
  obtain ⟨attempt', txHash', blockNumber', blockHash', linked', sent', -, numbered', hashed', -,
    rfl⟩ := other.facts
  obtain rfl := Option.some.inj (linked.symm.trans linked')
  obtain rfl := Option.some.inj (sent.symm.trans sent')
  obtain rfl := Option.some.inj (numbered.symm.trans numbered')
  obtain rfl := Option.some.inj (hashed.symm.trans hashed')
  exact ⟨rfl, rfl⟩

theorem transitionAfterReceipt_blind (row : TransactionReceiptRow) (id : ExecutionId)
    (target : LifecycleState) (db : Db) :
    transitionExecutionSafe
        { db.switchedOn with receipts := db.switchedOn.receipts ++ [row] } id target =
      (transitionExecutionSafe { db with receipts := db.receipts ++ [row] } id target).map
        Db.switchedOn :=
  transitionExecutionSafe_blind id target { db with receipts := db.receipts ++ [row] }

/-- A receipt is held up exactly when it is stored as confirmed for a chain that
is off. -/
theorem persistReceipt_gated (receipt : ReceiptRecord) :
    Gated Db.switchedOn (fun db => db.ConfirmsOn receipt)
      (fun db => persistReceipt db receipt) where
  opened {db db'} success := by
    obtain ⟨chainId, row, persistable, moved⟩ := persistReceipt_eq_ok.mp success
    refine persistReceipt_eq_ok.mpr ⟨chainId, row, persistable.opened, ?_⟩
    rw [transitionAfterReceipt_blind, moved]
    rfl
  free_iff {db db'} unlocked := by
    obtain ⟨chainId, row, persistable, moved⟩ := persistReceipt_eq_ok.mp unlocked
    rw [transitionAfterReceipt_blind, map_eq_ok] at moved
    obtain ⟨closed, moved, -⟩ := moved
    rw [← persistable_iff persistable]
    constructor
    · rintro ⟨final, success⟩
      obtain ⟨otherChain, otherRow, otherPersistable, -⟩ := persistReceipt_eq_ok.mp success
      obtain ⟨rfl, rfl⟩ := persistable.unique otherPersistable.opened
      exact otherPersistable
    · exact fun now => ⟨closed, persistReceipt_eq_ok.mpr ⟨chainId, row, now, moved⟩⟩

/-- A settlement is held up exactly when it rests on a confirmed receipt of a
chain that is off. -/
theorem settleReservationTotal_gated (now : Time) (id : ReservationId) (actualAmountWei : Wei) :
    Gated Db.switchedOn (fun db => db.SettlesOn id)
      (fun db => settleReservationTotal db now id actualAmountWei) where
  opened {db db'} success := by
    have sameRow : db.switchedOn.reservation id = db.reservation id := rfl
    unfold settleReservationTotal at success ⊢
    rw [sameRow]
    cases found : db.reservation id with
    | none =>
        rw [found] at success
        exact Except.ok.inj success ▸ rfl
    | some row =>
        rw [found] at success
        dsimp only at success ⊢
        split at success
        · rename_i closed
          rw [if_pos closed]
          exact Except.ok.inj success ▸ rfl
        · rename_i pending
          simp only [bind_eq_ok, refuse_eq_ok, pure_eq_ok, not_not] at success
          obtain ⟨⟨⟩, amount, ⟨⟩, evidence, rfl⟩ := success
          rw [if_neg pending]
          simp only [bind_eq_ok, refuse_eq_ok, pure_eq_ok, not_not]
          exact ⟨⟨⟩, amount, ⟨⟩, ((db.settlementEvidence_iff row.executionId).mp evidence).1, rfl⟩
  free_iff {db db'} unlocked := by
    have opened := FactWrite.settleReservationTotal_succeeds_iff.mp ⟨db', unlocked⟩
    rw [FactWrite.settleReservationTotal_succeeds_iff]
    constructor
    · intro closed row found pending
      exact ((db.settlementEvidence_iff row.executionId).mp (closed row found pending).2).2
    · intro on row found pending
      obtain ⟨amount, evidence⟩ := opened row found pending
      exact ⟨amount, (db.settlementEvidence_iff row.executionId).mpr
        ⟨evidence, on row found pending⟩⟩

namespace Db

theorem finalityPresent_iff (db : Db) (receipt : TransactionReceiptRow) :
    ¬ db.FinalityMissing receipt true ↔ ¬ db.switchedOn.FinalityMissing receipt true ∧
      ∀ attempt ∈ db.attempt receipt.transactionAttemptId, db.ChainOn attempt := by
  have sameAttempt : db.switchedOn.attempt receipt.transactionAttemptId =
      db.attempt receipt.transactionAttemptId := rfl
  unfold FinalityMissing ChainOn
  rw [sameAttempt]
  cases db.attempt receipt.transactionAttemptId with
  | none => simp
  | some attempt =>
      simp only [Option.mem_def, Option.some.injEq, exists_eq_left', forall_eq', not_not,
        attemptProfile_switchedOn]
      cases db.attemptProfile attempt with
      | none => simp
      | some profile => simp [ChainProfile.switch, and_comm]

theorem finalityMissing_switchedOn (db : Db) (receipt : TransactionReceiptRow) :
    db.switchedOn.FinalityMissing receipt false ↔ db.FinalityMissing receipt false := by
  have sameAttempt : db.switchedOn.attempt receipt.transactionAttemptId =
      db.attempt receipt.transactionAttemptId := rfl
  unfold FinalityMissing
  rw [sameAttempt]
  cases db.attempt receipt.transactionAttemptId with
  | none => simp
  | some attempt =>
      simp only [Option.mem_def, Option.some.injEq, exists_eq_left', attemptProfile_switchedOn]
      cases db.attemptProfile attempt <;> simp [ChainProfile.switch]

end Db

/-- The evidence checks of a settlement by components look at the switch when the
newest receipt is a confirmed one. -/
theorem assertSettlementOutcome_iff (db : Db) (row : SpendReservationRow)
    (components : SettlementComponents) :
    assertSettlementOutcome db row components = .ok () ↔
      assertSettlementOutcome db.switchedOn row components = .ok () ∧
        db.ConfirmedOn row.executionId := by
  have sameReceipt : db.switchedOn.latestReceipt row.executionId =
      db.latestReceipt row.executionId := rfl
  have sameReconciliation : db.switchedOn.latestReconciliation row.executionId =
      db.latestReconciliation row.executionId := rfl
  unfold assertSettlementOutcome Db.ConfirmedOn
  simp only [sameReceipt, sameReconciliation, bind_eq_ok, refuse_eq_ok,
    Db.finalityMissing_switchedOn]
  cases db.latestReceipt row.executionId with
  | none => simp
  | some receipt =>
      simp only [Option.mem_some_iff, exists_eq_left', forall_eq', exists_const, not_and]
      constructor
      · rintro ⟨present, final, rest⟩
        refine ⟨⟨present, fun confirmed => ?_, rest⟩, fun confirmed => ?_⟩
        · exact ((db.finalityPresent_iff receipt).mp (final confirmed)).1
        · exact ((db.finalityPresent_iff receipt).mp (final confirmed)).2
      · rintro ⟨⟨present, final, rest⟩, on⟩
        refine ⟨present, fun confirmed => ?_, rest⟩
        exact (db.finalityPresent_iff receipt).mpr ⟨final confirmed, on confirmed⟩

/-- A settlement by components is held up exactly when the newest receipt is a
confirmed one of a chain that is off. -/
theorem settleExecutionComponents_gated (now : Time) (id : ReservationId)
    (components : SettlementComponents) :
    Gated Db.switchedOn
      (fun db => ∀ row ∈ db.reservation id, row.status = .reserved →
        db.ConfirmedOn row.executionId)
      (fun db => settleExecutionComponents db now id components) where
  opened {db db'} success := by
    have sameRow : db.switchedOn.reservation id = db.reservation id := rfl
    unfold settleExecutionComponents at success ⊢
    rw [sameRow]
    cases found : db.reservation id with
    | none =>
        rw [found] at success
        cases success
    | some row =>
        rw [found] at success
        simp only [bind_eq_ok, require_eq_ok, Option.some.injEq, exists_eq_left'] at success ⊢
        split at success
        · rename_i closed
          rw [if_pos closed]
          exact Except.ok.inj success ▸ rfl
        · rename_i unsettled
          rw [if_neg unsettled]
          simp only [bind_eq_ok, refuse_eq_ok, pure_eq_ok, not_not] at success ⊢
          obtain ⟨⟨⟩, pending, ⟨⟩, signs, ⟨⟩, outcome, ⟨⟩, bounds, ⟨⟩, total, ⟨⟩, evidence, ⟨⟩,
            positive, rfl⟩ := success
          exact ⟨⟨⟩, pending, ⟨⟩, signs, ⟨⟩,
            ((assertSettlementOutcome_iff db row components).mp outcome).1, ⟨⟩, bounds, ⟨⟩, total,
            ⟨⟩, ((db.settlementEvidence_iff row.executionId).mp evidence).1, ⟨⟩, positive, rfl⟩
  free_iff {db db'} unlocked := by
    have sameRow : db.switchedOn.reservation id = db.reservation id := rfl
    unfold settleExecutionComponents at unlocked ⊢
    rw [sameRow] at unlocked
    cases found : db.reservation id with
    | none =>
        rw [found] at unlocked
        cases unlocked
    | some row =>
        rw [found] at unlocked
        simp only [bind_eq_ok, require_eq_ok, Option.some.injEq, exists_eq_left', Option.mem_def,
          forall_eq'] at unlocked ⊢
        split at unlocked
        · rename_i closed
          rw [if_pos closed]
          exact iff_of_true ⟨db, rfl⟩ fun pending => by simp [closed] at pending
        · rename_i unsettled
          rw [if_neg unsettled]
          simp only [bind_eq_ok, refuse_eq_ok, pure_eq_ok, not_not] at unlocked ⊢
          obtain ⟨⟨⟩, pending, ⟨⟩, signs, ⟨⟩, outcome, ⟨⟩, bounds, ⟨⟩, total, ⟨⟩, evidence, ⟨⟩,
            positive, rfl⟩ := unlocked
          constructor
          · rintro ⟨final, ⟨⟩, -, ⟨⟩, -, ⟨⟩, outcomeHere, -⟩ -
            exact ((assertSettlementOutcome_iff db row components).mp outcomeHere).2
          · intro on
            have confirmedOn := on pending
            exact ⟨_, ⟨⟩, pending, ⟨⟩, signs, ⟨⟩,
              (assertSettlementOutcome_iff db row components).mpr ⟨outcome, confirmedOn⟩, ⟨⟩,
              bounds, ⟨⟩, total, ⟨⟩, (db.settlementEvidence_iff row.executionId).mpr
                ⟨evidence, Or.inr confirmedOn⟩, ⟨⟩, positive, rfl⟩

namespace FactWrite

/-- The switch does not hold up the write. -/
def Free : FactWrite → Db → Prop
  | .attempt _, _ => True
  | .receipt record, db => db.ConfirmsOn record
  | .reconciliation _, _ => True
  | .reservation next prior, db => ∀ old ∈ prior, Settles next old → db.SettlesOn next.id

theorem reservation_gated (now : Time) (next : Reservation) (prior : Option Reservation) :
    Gated Db.switchedOn (Free (.reservation next prior))
      (fun db => persistReservation db now next prior) := by
  cases prior with
  | none => exact Gated.congr (.ungated fun _ => rfl) fun _ => by simp [Free]
  | some old =>
      by_cases unchanged : old.status = next.status ∧ old.actualAmountWei = next.actualAmountWei
      · have settles : ¬ Settles next old := fun both => both.2 (unchanged.1.trans both.1)
        refine Gated.congr (.ungated fun db => ?_) fun _ => by simp [Free, settles]
        simp only [persistReservation, if_pos unchanged]
        rfl
      by_cases settled : old.status = .settled
      · have settles : ¬ Settles next old := fun both => both.2 settled
        refine Gated.congr (.ungated fun db => ?_) fun _ => by simp [Free, settles]
        simp only [persistReservation, if_neg unchanged, if_pos settled]
        rfl
      by_cases settling : next.status = .settled
      · have settles : Settles next old := ⟨settling, settled⟩
        have same : (fun db => persistReservation db now next (some old)) = fun db =>
            settleReservationTotal db now next.id (next.actualAmountWei.getD next.amountWei) := by
          funext db
          dsimp only [persistReservation]
          rw [if_neg unchanged, if_neg settled, settling]
        rw [same]
        refine Gated.congr (settleReservationTotal_gated now next.id _) fun _ => ?_
        simp [Free, settles]
      · have settles : ¬ Settles next old := fun both => settling both.1
        refine Gated.congr (.ungated fun db => ?_) fun _ => by simp [Free, settles]
        simp only [persistReservation, if_neg unchanged, if_neg settled]
        cases status : next.status with
        | settled => exact absurd status settling
        | released => rfl
        | reorged => rfl
        | reserved => rfl

theorem run_gated (now : Time) (write : FactWrite) :
    Gated Db.switchedOn write.Free (write.run now) := by
  cases write with
  | attempt record => exact .ungated (persistAttempt_blind record)
  | receipt record => exact persistReceipt_gated record
  | reconciliation record => exact .ungated (persistReconciliation_blind record)
  | reservation next prior => exact reservation_gated now next prior

end FactWrite

/-! ## Transactions of the coordinator -/

/-- No write of a change is held up by the switch when its turn comes. -/
def DeltaFree (now : Time) (previous next : BackendState) (db : Db) : Prop :=
  ∀ moved, (changed previous.runs next.runs).foldlM
      (fun db run => persistRun db run (Table.lookup RunRecord.id run.id previous.runs)) db =
        .ok moved →
    Machine.Allowed (FactWrite.run now) (fun db write => write.Free db) moved
      (factWrites previous next)

theorem persistDelta_gated (fleetPolicy : Option FleetSpendPolicy) (now : Time)
    {previous next : BackendState} (sameIntents : next.intents = previous.intents) :
    Gated Db.switchedOn (DeltaFree now previous next)
      (fun db => persistDelta fleetPolicy now db previous next) := by
  simp only [persistDelta_facts fleetPolicy now _ sameIntents]
  refine Gated.after (blind_foldlM (fun run db => persistRun_blind run _ db) _) ?_
  refine Gated.before (Gated.foldlM (FactWrite.run_gated now) _) ?_
  exact blind_bind
    (fun recorded => (next.events.drop previous.events.length).foldlM persistEvent recorded)
    (fun noted => pure { noted with killed := noted.killed || (!previous.killed && next.killed) })
    (blind_foldlM persistEvent_blind _) (fun _ => rfl)

theorem transaction_gated (fleetPolicy : Option FleetSpendPolicy) (now : Time)
    (mutate : BackendState → Except Error BackendState)
    (sameIntents : ∀ state next, mutate state = .ok next → next.intents = state.intents) :
    Gated Db.switchedOn
      (fun db => ∀ next, mutate (snapshot db) = .ok next → DeltaFree now (snapshot db) next db)
      (fun db => transaction fleetPolicy now db mutate) where
  opened {db db'} success := by
    obtain ⟨next, mutated, persisted⟩ := bind_eq_ok.mp success
    have gated := persistDelta_gated fleetPolicy now (sameIntents _ next mutated)
    exact bind_eq_ok.mpr ⟨next, mutated, gated.opened persisted⟩
  free_iff {db db'} unlocked := by
    obtain ⟨next, mutated, persisted⟩ := bind_eq_ok.mp unlocked
    have mutatedHere : mutate (snapshot db) = .ok next := mutated
    have gated := persistDelta_gated fleetPolicy now (sameIntents _ next mutated)
    simp only [transaction, mutatedHere, Except.ok.injEq, forall_eq']
    exact gated.free_iff persisted

/-! ## Recording what was sent -/

theorem executionIdentity_switchedOn (db : Db) (id : ExecutionId) :
    executionIdentity db.switchedOn id = executionIdentity db id := by
  have sameExecution : db.switchedOn.execution id = db.execution id := rfl
  have sameIntent : ∀ intentId, db.switchedOn.intent intentId = db.intent intentId := fun _ => rfl
  unfold executionIdentity
  simp only [sameExecution, sameIntent, Db.profile_switchedOn]
  cases db.execution id with
  | none => rfl
  | some execution =>
      simp only [Option.bind_eq_bind, Option.bind_some]
      cases db.intent execution.transactionIntentId with
      | none => rfl
      | some intent =>
          simp only [Option.bind_some]
          cases db.profile execution.walletId.chainProfileId <;> rfl

/-- The attempts of the engine are never held up. -/
theorem persistEngineAttempt_gated (fleetPolicy : Option FleetSpendPolicy) (now : Time)
    (input : EngineAttempt) :
    Gated Db.switchedOn (fun _ => True)
      (fun db => persistEngineAttempt fleetPolicy db now input) where
  opened {db db'} success := by
    rw [persistEngineAttempt_eq_ok] at success ⊢
    rw [executionIdentity_switchedOn]
    obtain ⟨identity, found, sameIntent, ⟨existing, stored, matching, rfl⟩ | ⟨fresh, persisted⟩⟩ :=
      success
    · exact ⟨identity, found, sameIntent, Or.inl ⟨existing, stored, matching, rfl⟩⟩
    · refine ⟨identity, found, sameIntent, Or.inr ⟨fresh, ?_⟩⟩
      rw [persistAttempt_blind, persisted]
      rfl
  free_iff {db db'} unlocked := by
    rw [persistEngineAttempt_eq_ok, executionIdentity_switchedOn] at unlocked
    refine iff_of_true ?_ trivial
    obtain ⟨identity, found, sameIntent, ⟨existing, stored, matching, -⟩ | ⟨fresh, persisted⟩⟩ :=
      unlocked
    · exact ⟨db, persistEngineAttempt_eq_ok.mpr
        ⟨identity, found, sameIntent, Or.inl ⟨existing, stored, matching, rfl⟩⟩⟩
    · rw [persistAttempt_blind, map_eq_ok] at persisted
      obtain ⟨closed, persisted, -⟩ := persisted
      exact ⟨closed, persistEngineAttempt_eq_ok.mpr
        ⟨identity, found, sameIntent, Or.inr ⟨fresh, persisted⟩⟩⟩

/-- The receipt lacks the facts of its block. -/
def EngineReceipt.Bare (input : EngineReceipt) : Prop :=
  input.blockNumber = none ∨ input.blockHash.filter (· ≠ "") = none

/-- The receipt names the hash of its attempt. -/
def EngineReceipt.HashMatches (input : EngineReceipt) (db : Db) : Prop :=
  ∃ hash, (((db.attempt input.transactionAttemptId).filter fun row =>
      row.executionId = input.executionId).bind fun row => row.txHash.filter (· ≠ "")) = some hash ∧
    toLowerCase hash = toLowerCase input.txHash

/-- The accounting of what an engine receipt spent. -/
def EngineReceipt.account (input : EngineReceipt) (identity : ExecutionIdentity) (db : Db) : Db :=
  { db with
    receiptAccounting := db.receiptAccounting ++
      [{ receiptId := input.id, actualSpendWei := input.actualSpendWei identity }] }

/-- Store the receipt of an execution next to the accounting of what it spent. -/
def persistAudited (input : EngineReceipt) (identity : ExecutionIdentity) (db : Db) :
    Except Error Db :=
  persistReceipt (input.account identity db) (input.record identity)

theorem persistAudited_gated (input : EngineReceipt) (identity : ExecutionIdentity) :
    Gated Db.switchedOn (fun db => db.ConfirmsOn (input.record identity))
      (persistAudited input identity) := by
  have gated := persistReceipt_gated (input.record identity)
  have accounted : ∀ db, input.account identity db.switchedOn =
      (input.account identity db).switchedOn := fun _ => rfl
  constructor
  · intro db db' success
    unfold persistAudited at success ⊢
    rw [accounted]
    exact gated.opened success
  · intro db db' unlocked
    unfold persistAudited at unlocked ⊢
    rw [accounted] at unlocked
    exact gated.free_iff unlocked

/-- A receipt with its facts is stored once, next to the accounting of what it
spent. -/
theorem persistEngineReceipt_eq_ok {fleetPolicy : Option FleetSpendPolicy} {db db' : Db}
    {now : Time} {input : EngineReceipt} :
    persistEngineReceipt fleetPolicy db now input = .ok db' ↔
      ∃ identity, executionIdentity db input.executionId = some identity ∧
        ((input.Bare ∧
            persistEvent db { runId := none, type := .pendingReceipt input.executionId } = .ok db') ∨
          (¬ input.Bare ∧ input.status.valid = true ∧ input.HashMatches db ∧
            (((∃ receipt ∈ (snapshot db).receipts, receipt.id = input.id) ∧ db = db') ∨
              (¬ (∃ receipt ∈ (snapshot db).receipts, receipt.id = input.id) ∧
                persistAudited input identity db = .ok db')))) := by
  have delta : ∀ identity, (∀ old ∈ db.readReceipts, old.id ≠ input.id) →
      persistDelta fleetPolicy now
        { db with
          receiptAccounting := db.receiptAccounting ++
            [{ receiptId := input.id, actualSpendWei := input.actualSpendWei identity }] }
        (snapshot db)
        { snapshot db with receipts := (snapshot db).receipts ++ [input.record identity] } =
      persistAudited input identity db :=
    fun identity fresh => persistDelta_receipt fleetPolicy now _ fresh
  simp only [persistEngineReceipt, bind_eq_ok, require_eq_ok]
  refine exists_congr fun identity => and_congr_right fun found => ?_
  unfold EngineReceipt.Bare EngineReceipt.HashMatches
  split
  · rename_i bare
    simp only [bare, true_and, not_true_eq_false, false_and, or_false]
  · rename_i facts
    simp only [facts, false_and, not_false_eq_true, true_and, false_or, bind_eq_ok, refuse_eq_ok,
      require_eq_ok, not_not, Bool.not_eq_false]
    by_cases stored : ∃ receipt ∈ (snapshot db).receipts, receipt.id = input.id
    · simp only [stored, if_true, pure_eq_ok, not_true_eq_false, true_and, false_and, or_false]
      constructor
      · rintro ⟨⟨⟩, valid, hash, named, ⟨⟩, same, result⟩
        exact ⟨valid, ⟨hash, named, same⟩, result⟩
      · rintro ⟨valid, ⟨hash, named, same⟩, result⟩
        exact ⟨⟨⟩, valid, hash, named, ⟨⟩, same, result⟩
    · have fresh : ∀ old ∈ db.readReceipts, old.id ≠ input.id :=
        fun old member same => stored ⟨old, member, same⟩
      simp only [stored, if_false, not_false_eq_true, true_and, false_and, false_or,
        delta identity fresh]
      constructor
      · rintro ⟨⟨⟩, valid, hash, named, ⟨⟩, same, result⟩
        exact ⟨valid, ⟨hash, named, same⟩, result⟩
      · rintro ⟨valid, ⟨hash, named, same⟩, result⟩
        exact ⟨⟨⟩, valid, hash, named, ⟨⟩, same, result⟩

/-- An engine receipt is only noted, or stored already, or not stored as confirmed
for a chain that is off. -/
def EngineReceipt.Free (input : EngineReceipt) (db : Db) : Prop :=
  input.Bare ∨
    (∃ receipt ∈ (snapshot db).receipts, receipt.id = input.id) ∨
    ∀ identity ∈ executionIdentity db input.executionId, db.ConfirmsOn (input.record identity)

theorem persistEngineReceipt_gated (fleetPolicy : Option FleetSpendPolicy) (now : Time)
    (input : EngineReceipt) :
    Gated Db.switchedOn input.Free (fun db => persistEngineReceipt fleetPolicy db now input) where
  opened {db db'} success := by
    rw [persistEngineReceipt_eq_ok] at success ⊢
    rw [executionIdentity_switchedOn]
    obtain ⟨identity, found, ⟨bare, noted⟩ | ⟨facts, valid, hash, ⟨stored, rfl⟩ |
      ⟨fresh, persisted⟩⟩⟩ := success
    · refine ⟨identity, found, Or.inl ⟨bare, ?_⟩⟩
      rw [persistEvent_blind, noted]
      rfl
    · exact ⟨identity, found, Or.inr ⟨facts, valid, hash, Or.inl ⟨stored, rfl⟩⟩⟩
    · exact ⟨identity, found, Or.inr ⟨facts, valid, hash, Or.inr ⟨fresh,
        (persistAudited_gated input identity).opened persisted⟩⟩⟩
  free_iff {db db'} unlocked := by
    rw [persistEngineReceipt_eq_ok, executionIdentity_switchedOn] at unlocked
    simp only [persistEngineReceipt_eq_ok]
    obtain ⟨identity, found, ⟨bare, noted⟩ | ⟨facts, valid, hash, ⟨stored, -⟩ |
      ⟨fresh, persisted⟩⟩⟩ := unlocked
    · rw [persistEvent_blind, map_eq_ok] at noted
      obtain ⟨closed, noted, -⟩ := noted
      exact iff_of_true ⟨closed, identity, found, Or.inl ⟨bare, noted⟩⟩ (Or.inl bare)
    · exact iff_of_true
        ⟨db, identity, found, Or.inr ⟨facts, valid, hash, Or.inl ⟨stored, rfl⟩⟩⟩
        (Or.inr (Or.inl stored))
    · have gated := (persistAudited_gated input identity).free_iff persisted
      constructor
      · rintro ⟨closed, other, otherFound, ⟨bare, -⟩ | ⟨-, -, -, ⟨stored, -⟩ | ⟨-, here⟩⟩⟩
        · exact absurd bare facts
        · exact absurd stored fresh
        · obtain rfl := Option.some.inj (found.symm.trans otherFound)
          refine Or.inr (Or.inr fun same sameFound => ?_)
          obtain rfl := Option.some.inj (found.symm.trans sameFound)
          exact gated.mp ⟨closed, here⟩
      · rintro (bare | stored | on)
        · exact absurd bare facts
        · exact absurd stored fresh
        · obtain ⟨closed, here⟩ := gated.mpr (on identity found)
          exact ⟨closed, identity, found,
            Or.inr ⟨facts, valid, hash, Or.inr ⟨fresh, here⟩⟩⟩

/-- What live executions and reconcile passes write about sent transactions. -/
inductive FactOp
  | attempt (now : Time) (input : EngineAttempt)
  | receipt (now : Time) (input : EngineReceipt)
  | result (now : Time) (chainId : ChainId) (runId : RunId) (returned : ExecutionResult)
      (killedAfterExecution : Bool)
  | update (now : Time) (chainId : ChainId) (runId : RunId) (reported : ReconciliationUpdate)
      (storedAttempts : List AttemptRecord)
  | settleComponents (now : Time) (id : ReservationId) (components : SettlementComponents)
  | settleTotal (now : Time) (id : ReservationId) (actualAmountWei : Wei)
  | transitionReservation (id : ReservationId) (status : ReservationStatus)
  | abortRemaining
  | abortRunIfUnsent (runId : RunId)

namespace FactOp

/-- The store operation that writes a fact. -/
def op : FactOp → StoreOp
  | .attempt now input => .attempt now input
  | .receipt now input => .receipt now input
  | .result now chainId runId returned killedAfterExecution =>
      .transact now (recordResult chainId runId returned killedAfterExecution)
  | .update now chainId runId reported storedAttempts =>
      .transact now (recordUpdate chainId runId reported storedAttempts now)
  | .settleComponents now id components => .settleComponents now id components
  | .settleTotal now id actualAmountWei => .settleTotal now id actualAmountWei
  | .transitionReservation id status => .transitionReservation id status
  | .abortRemaining => .abortRemaining
  | .abortRunIfUnsent runId => .abortRunIfUnsent runId

/-- Recording the fact stores no receipt as confirmed for a chain that is off, and
settles nothing by a confirmed receipt of such a chain. -/
def Free (db : Db) : FactOp → Prop
  | .receipt _ input => input.Free db
  | .result now chainId runId returned killedAfterExecution =>
      ∀ next, recordResult chainId runId returned killedAfterExecution (snapshot db) = .ok next →
        DeltaFree now (snapshot db) next db
  | .update now chainId runId reported storedAttempts =>
      ∀ next, recordUpdate chainId runId reported storedAttempts now (snapshot db) = .ok next →
        DeltaFree now (snapshot db) next db
  | .settleComponents _ id _ =>
      ∀ row ∈ db.reservation id, row.status = .reserved → db.ConfirmedOn row.executionId
  | .settleTotal _ id _ => db.SettlesOn id
  | .attempt _ _ | .transitionReservation _ _ | .abortRemaining | .abortRunIfUnsent _ => True

theorem recordResult_intents {chainId : ChainId} {runId : RunId} {result : ExecutionResult}
    {killedAfterExecution : Bool} {state next : BackendState}
    (success : recordResult chainId runId result killedAfterExecution state = .ok next) :
    next.intents = state.intents := by
  unfold recordResult at success
  split at success
  · obtain ⟨runs, -, accounted⟩ := bind_eq_ok.mp success
    obtain ⟨reservations, rfl⟩ := applyAccountingToState_shape accounted
    rfl
  · obtain ⟨moved, -, rest⟩ := bind_eq_ok.mp success
    obtain ⟨runs, -, accounted⟩ := bind_eq_ok.mp rest
    obtain ⟨reservations, rfl⟩ := applyAccountingToState_shape accounted
    rfl

/-- The switch holds up a fact exactly when it is not free. -/
theorem gated (fleetPolicy : Option FleetSpendPolicy) (fact : FactOp) :
    Gated Db.switchedOn (fun db => fact.Free db) (fact.op.step fleetPolicy) := by
  cases fact with
  | attempt now input => exact persistEngineAttempt_gated fleetPolicy now input
  | receipt now input => exact persistEngineReceipt_gated fleetPolicy now input
  | result now chainId runId returned killedAfterExecution =>
      exact transaction_gated fleetPolicy now
        (recordResult chainId runId returned killedAfterExecution)
        fun _ _ success => recordResult_intents success
  | update now chainId runId reported storedAttempts =>
      exact transaction_gated fleetPolicy now
        (recordUpdate chainId runId reported storedAttempts now)
        fun _ _ success => (recordUpdate_effect success).intents
  | settleComponents now id components => exact settleExecutionComponents_gated now id components
  | settleTotal now id actualAmountWei => exact settleReservationTotal_gated now id actualAmountWei
  | transitionReservation id status => exact .ungated (transitionReservation_blind id status)
  | abortRemaining => exact .ungated abortRemaining_blind
  | abortRunIfUnsent runId => exact .ungated (abortRunIfUnsent_blind runId)

end FactOp

/-- The commands of a store whose chains are switched. -/
inductive ChainOp
  | fact (written : FactOp)
  | revokeEnablement (chain : EnablementChain) (revokedAt : Time) (confirmationDigest : String)
  | disableRobinhoodIfNotEnabled (now : Time)
  | disableBaseIfNotEnabled (now : Time)
  | chainEvidence (now : Time) (evidence : ChainEvidenceRecord)
  /-- Any other transaction, such as an admission or a new enablement. -/
  | other (transaction : Db → Except Error Db)

namespace ChainOp

def step (fleetPolicy : Option FleetSpendPolicy) (op : ChainOp) (db : Db) : Except Error Db :=
  match op with
  | .fact written => written.op.step fleetPolicy db
  | .revokeEnablement chain revokedAt confirmationDigest =>
      MintBot.revokeEnablement db chain revokedAt confirmationDigest
  | .disableRobinhoodIfNotEnabled now => .ok (MintBot.disableRobinhoodIfNotEnabled db now)
  | .disableBaseIfNotEnabled now => .ok (MintBot.disableBaseIfNotEnabled db now)
  | .chainEvidence now evidence => persistChainEvidence db now evidence
  | .other transaction => transaction db

/-- A fact that is recorded when every chain is on is recorded, with the same
effect. -/
def Kept (fleetPolicy : Option FleetSpendPolicy) (db : Db) : ChainOp → Prop
  | .fact written => ∀ opened, written.op.step fleetPolicy db.switchedOn = .ok opened →
      ∃ next, written.op.step fleetPolicy db = .ok next ∧ next.switchedOn = opened
  | _ => True

/-- A fact that is recorded when every chain is on is free. -/
def Free (fleetPolicy : Option FleetSpendPolicy) (db : Db) : ChainOp → Prop
  | .fact written =>
      (∃ opened, written.op.step fleetPolicy db.switchedOn = .ok opened) → written.Free db
  | _ => True

theorem kept_iff (fleetPolicy : Option FleetSpendPolicy) (db : Db) (op : ChainOp) :
    op.Kept fleetPolicy db ↔ op.Free fleetPolicy db := by
  cases op with
  | fact written =>
      have gated := written.gated fleetPolicy
      constructor
      · rintro kept ⟨opened, success⟩
        obtain ⟨next, closed, -⟩ := kept opened success
        exact (gated.free_iff success).mp ⟨next, closed⟩
      · intro free opened success
        obtain ⟨next, closed⟩ := (gated.free_iff success).mpr (free ⟨opened, success⟩)
        exact ⟨next, closed, Except.ok.inj ((gated.opened closed).symm.trans success)⟩
  | _ => exact Iff.rfl

end ChainOp

/-- In a run that interleaves recorded facts with switched chains and any other
transactions, everything is recorded as if no chain were ever off exactly when
no confirmed receipt is recorded, and nothing settled by one, while its chain is
off. -/
theorem switched_off_keeps_iff (fleetPolicy : Option FleetSpendPolicy) (start : Db)
    (ops : List ChainOp) :
    Machine.Allowed (ChainOp.step fleetPolicy) (fun db op => op.Kept fleetPolicy db) start ops ↔
      Machine.Allowed (ChainOp.step fleetPolicy) (fun db op => op.Free fleetPolicy db) start
        ops := by
  have same : (fun (db : Db) (op : ChainOp) => op.Kept fleetPolicy db) =
      fun db op => op.Free fleetPolicy db := by
    funext db op
    exact propext (ChainOp.kept_iff fleetPolicy db op)
  rw [same]

/-- A new evidence record for Ethereum that the owner has not accepted yet. -/
def submittedEvidence : ChainEvidenceRecord where
  chainId := .ethereum
  status := .pending
  executionEnabled := false
  finalityPassed := true
  checkedAt := 0
  expiresAt := 1
  endpointIdentity := "rpc"
  archiveEndpointIdentity := none
  acceptedAt := none
  acceptedBy := none

/-- What a reconcile pass found out about the transaction of the wallet `w`. -/
def confirmedUpdate : ReconciliationUpdate where
  result := .confirmed
  attempts := []
  receipts :=
    [(Sample.receipt "first" "w").record (Sample.identity .ethereum "first" "w")]
  reason := none

/-- The transaction of `w` was sent, and Ethereum is switched off by new evidence
before its final receipt is recorded. -/
def strandedRun (fact : FactOp) : List ChainOp :=
  [.fact (.attempt 0 (Sample.attempt "first" "w")), .chainEvidence 0 submittedEvidence, .fact fact]

/-- A final receipt is refused while the chain is off, by the engine's write and by
the transaction of a reconcile pass. -/
theorem confirmed_receipt_stranded :
    ¬ Machine.Allowed (ChainOp.step Sample.fleetPolicy)
        (fun db op => op.Kept Sample.fleetPolicy db) (Sample.admitted .ethereum "first" "w")
        (strandedRun (.receipt 0 (Sample.receipt "first" "w"))) ∧
      ¬ Machine.Allowed (ChainOp.step Sample.fleetPolicy)
        (fun db op => op.Kept Sample.fleetPolicy db) (Sample.admitted .ethereum "first" "w")
        (strandedRun (.update 0 .ethereum "first" confirmedUpdate [])) := by
  have refused : ∀ fact : FactOp,
      let off := Machine.applyAll (ChainOp.step Sample.fleetPolicy)
        (Sample.admitted .ethereum "first" "w")
        [.fact (.attempt 0 (Sample.attempt "first" "w")), .chainEvidence 0 submittedEvidence]
      (fact.op.step Sample.fleetPolicy off.switchedOn).toOption.isSome = true →
      (fact.op.step Sample.fleetPolicy off).toOption = none →
      ¬ Machine.Allowed (ChainOp.step Sample.fleetPolicy)
        (fun db op => op.Kept Sample.fleetPolicy db) (Sample.admitted .ethereum "first" "w")
        (strandedRun fact) := by
    rintro fact off opens closes ⟨-, -, kept, -⟩
    obtain ⟨opened, success⟩ := Option.isSome_iff_exists.mp opens
    obtain ⟨next, closed, -⟩ := kept opened (mem_toOption.mp success)
    have stored : next ∈ (fact.op.step Sample.fleetPolicy off).toOption :=
      mem_toOption.mpr closed
    rw [closes] at stored
    simp at stored
  exact ⟨refused _ (by decide +kernel) (by decide +kernel),
    refused _ (by decide +kernel) (by decide +kernel)⟩

end MintBot
