import MintBot.Store.Operation

/-!
# Which evidence a settlement follows

The guard of a settlement asks three questions about the newest receipt and the newest
reconciliation of an execution.  Only the last of them compares the two.  The guard follows the
newest item of both histories, except that it settles on an authoritative receipt even where a
later reconciliation is not authoritative.
-/

namespace Table

variable {ρ : Type*} {instant : ρ → Int} {text : ρ → String}

variable (instant text) in
theorem foldl_newest (rows : List ρ) (start : ρ) :
    ∃ row, rows.foldl (fun best row =>
        match best with
        | none => some row
        | some other =>
            if instant other < instant row ∨ (instant other = instant row ∧ text other < text row)
            then some row else some other) (some start) = some row ∧
      (row = start ∨ row ∈ rows) ∧ instant start ≤ instant row ∧
      ∀ other ∈ rows, instant other ≤ instant row := by
  induction rows generalizing start with
  | nil => exact ⟨start, rfl, .inl rfl, Int.le_refl _, nofun⟩
  | cons first rest inductionHypothesis =>
      rw [List.foldl_cons]
      dsimp only
      split
      · rename_i later
        obtain ⟨row, found, source, fromFirst, others⟩ := inductionHypothesis first
        have fromStart : instant start ≤ instant first := by
          rcases later with before | ⟨same, -⟩
          · exact Int.le_of_lt before
          · exact Int.le_of_eq same
        refine ⟨row, found, .inr ?_, Int.le_trans fromStart fromFirst, ?_⟩
        · exact source.elim (fun same => same ▸ List.mem_cons_self) (List.mem_cons_of_mem _)
        · exact List.forall_mem_cons.mpr ⟨fromFirst, others⟩
      · rename_i notLater
        obtain ⟨row, found, source, fromStart, others⟩ := inductionHypothesis start
        have notBefore : instant first ≤ instant start :=
          Int.not_lt.mp fun before => notLater (.inl before)
        refine ⟨row, found, source.imp_right (List.mem_cons_of_mem _), fromStart, ?_⟩
        exact List.forall_mem_cons.mpr ⟨Int.le_trans notBefore fromStart, others⟩

/-- The newest row is one of the rows, and none is later. -/
theorem newest_spec {rows : List ρ} {row : ρ} (found : newest instant text rows = some row) :
    row ∈ rows ∧ ∀ other ∈ rows, instant other ≤ instant row := by
  cases rows with
  | nil => cases found
  | cons first rest =>
      obtain ⟨chosen, isNewest, source, fromFirst, others⟩ :=
        foldl_newest instant text rest first
      obtain rfl : chosen = row := Option.some.inj (isNewest.symm.trans found)
      refine ⟨?_, List.forall_mem_cons.mpr ⟨fromFirst, others⟩⟩
      exact source.elim (fun same => same ▸ List.mem_cons_self) (List.mem_cons_of_mem _)

variable (instant text) in
theorem exists_newest {rows : List ρ} {row : ρ} (member : row ∈ rows) :
    ∃ found, newest instant text rows = some found := by
  cases rows with
  | nil => cases member
  | cons first rest =>
      obtain ⟨chosen, isNewest, -⟩ := foldl_newest instant text rest first
      exact ⟨chosen, isNewest⟩

end Table

namespace MintBot

open Fallible

/-! ## The two histories taken together -/

inductive EvidenceItem
  | receipt (row : TransactionReceiptRow)
  | reconciliation (row : ReconciliationRow)
  deriving DecidableEq

def EvidenceItem.instant : EvidenceItem → Time
  | .receipt row => row.observedAt
  | .reconciliation row => row.checkedAt

namespace Db

variable (db : Db) (executionId : ExecutionId)

/-- The receipts and reconciliations of an execution. -/
def evidence : List EvidenceItem :=
  ((db.receipts.filter fun row => row.executionId = executionId).map .receipt) ++
    (db.reconciliations.filter fun row => row.executionId = executionId).map .reconciliation

/-- The success stage of the chain that the receipt belongs to. -/
def AtSuccessStage (row : TransactionReceiptRow) : Prop :=
  ∃ attempt ∈ db.attempt row.transactionAttemptId, ∃ profile ∈ db.attemptProfile attempt,
    row.finalityStage = profile.successFinalityStage

def Authoritative : EvidenceItem → Prop
  | .receipt row =>
      (row.status = .confirmed ∧ db.AtSuccessStage row) ∨
        row.status = .reverted ∨ row.status = .dropped ∨ row.status = .reorged
  | .reconciliation row => row.state = .final ∨ row.state = .reorged

/-- The newest item of both histories is authoritative. -/
def NewestAuthoritative : Prop :=
  ∃ item ∈ db.evidence executionId,
    (∀ other ∈ db.evidence executionId, other.instant ≤ item.instant) ∧ db.Authoritative item

instance (item : EvidenceItem) : Decidable (db.Authoritative item) := by
  cases item with
  | receipt row =>
      unfold Authoritative AtSuccessStage
      infer_instance
  | reconciliation row =>
      unfold Authoritative
      infer_instance

instance : Decidable (db.NewestAuthoritative executionId) := by
  unfold NewestAuthoritative
  infer_instance

/-- The newest item is a reconciliation that is not authoritative, and the newest receipt before
it is. -/
def Overtaken : Prop :=
  ∃ record ∈ db.reconciliations, record.executionId = executionId ∧
    (∀ other ∈ db.evidence executionId, other.instant ≤ record.checkedAt) ∧
    ¬ db.Authoritative (.reconciliation record) ∧
    ∃ receipt ∈ db.receipts, receipt.executionId = executionId ∧
      (∀ other ∈ db.receipts, other.executionId = executionId →
        other.observedAt ≤ receipt.observedAt) ∧
      db.Authoritative (.receipt receipt)

/-- The chain of the execution is enabled. -/
def OnEnabledChain : Prop :=
  ∀ row ∈ db.receipts, row.executionId = executionId →
    ∀ attempt ∈ db.attempt row.transactionAttemptId, ∀ profile ∈ db.attemptProfile attempt,
      profile.executionEnabled = true

variable {db executionId}

theorem mem_evidence_receipt {row : TransactionReceiptRow} :
    .receipt row ∈ db.evidence executionId ↔ row ∈ db.receipts ∧ row.executionId = executionId := by
  simp [evidence]

theorem mem_evidence_reconciliation {row : ReconciliationRow} :
    .reconciliation row ∈ db.evidence executionId ↔
      row ∈ db.reconciliations ∧ row.executionId = executionId := by
  simp [evidence]

/-- On an enabled chain the first two questions are whether the newest receipt is
authoritative. -/
theorem settlementEvidence_iff_latest (enabled : db.OnEnabledChain executionId) :
    db.SettlementEvidence executionId ↔
      (∃ receipt ∈ db.latestReceipt executionId, db.Authoritative (.receipt receipt)) ∨
        ∃ record ∈ db.latestReconciliation executionId,
          db.Authoritative (.reconciliation record) ∧
            ∀ receipt ∈ db.receipts, receipt.executionId = executionId →
              receipt.observedAt ≤ record.checkedAt := by
  have atStage {receipt : TransactionReceiptRow}
      (newest : receipt ∈ db.latestReceipt executionId) :
      (∃ attempt ∈ db.attempt receipt.transactionAttemptId,
        db.EnabledFinality attempt receipt.finalityStage) ↔ db.AtSuccessStage receipt := by
    have inside := (Table.newest_spec newest).1
    rw [List.mem_filter, decide_eq_true_eq] at inside
    constructor
    · rintro ⟨attempt, found, profile, known, -, stage⟩
      exact ⟨attempt, found, profile, known, stage⟩
    · rintro ⟨attempt, found, profile, known, stage⟩
      exact ⟨attempt, found, profile, known,
        enabled receipt inside.1 inside.2 attempt found profile known, stage⟩
  unfold SettlementEvidence
  rw [← or_assoc]
  refine or_congr_left ?_
  constructor
  · rintro (⟨receipt, newest, confirmed, stage⟩ | ⟨receipt, newest, failed⟩)
    · exact ⟨receipt, newest, .inl ⟨confirmed, (atStage newest).mp stage⟩⟩
    · exact ⟨receipt, newest, .inr failed⟩
  · rintro ⟨receipt, newest, ⟨confirmed, stage⟩ | failed⟩
    · exact .inl ⟨receipt, newest, confirmed, (atStage newest).mpr stage⟩
    · exact .inr ⟨receipt, newest, failed⟩

theorem latestReceipt_spec {receipt : TransactionReceiptRow}
    (newest : receipt ∈ db.latestReceipt executionId) :
    receipt ∈ db.receipts ∧ receipt.executionId = executionId ∧
      ∀ other ∈ db.receipts, other.executionId = executionId →
        other.observedAt ≤ receipt.observedAt := by
  obtain ⟨inside, others⟩ := Table.newest_spec newest
  rw [List.mem_filter, decide_eq_true_eq] at inside
  refine ⟨inside.1, inside.2, fun other member same => others other ?_⟩
  simp [member, same]

theorem latestReconciliation_spec {record : ReconciliationRow}
    (newest : record ∈ db.latestReconciliation executionId) :
    record ∈ db.reconciliations ∧ record.executionId = executionId ∧
      ∀ other ∈ db.reconciliations, other.executionId = executionId →
        other.checkedAt ≤ record.checkedAt := by
  obtain ⟨inside, others⟩ := Table.newest_spec newest
  rw [List.mem_reverse, List.mem_filter, decide_eq_true_eq] at inside
  refine ⟨inside.1, inside.2, fun other member same => others other ?_⟩
  simp [member, same]

section Distinct

variable (distinct : ((db.evidence executionId).map EvidenceItem.instant).Nodup)

include distinct

/-- No two items have one instant. -/
theorem item_unique {first second : EvidenceItem} (firstMember : first ∈ db.evidence executionId)
    (secondMember : second ∈ db.evidence executionId) (atLeast : first.instant ≤ second.instant)
    (atMost : second.instant ≤ first.instant) : first = second :=
  List.inj_on_of_nodup_map distinct firstMember secondMember (Int.le_antisymm atLeast atMost)

theorem latestReceipt_of_newest {receipt : TransactionReceiptRow} (member : receipt ∈ db.receipts)
    (same : receipt.executionId = executionId)
    (newest : ∀ other ∈ db.receipts, other.executionId = executionId →
      other.observedAt ≤ receipt.observedAt) :
    db.latestReceipt executionId = some receipt := by
  have inside : receipt ∈ db.receipts.filter fun row => row.executionId = executionId := by
    simp [member, same]
  obtain ⟨found, latest⟩ := Table.exists_newest TransactionReceiptRow.observedAt
    (fun row => row.id.text) inside
  obtain ⟨foundMember, foundSame, others⟩ := latestReceipt_spec latest
  obtain ⟨⟩ := item_unique distinct (mem_evidence_receipt.mpr ⟨foundMember, foundSame⟩)
    (mem_evidence_receipt.mpr ⟨member, same⟩) (newest found foundMember foundSame)
    (others receipt member same)
  exact latest

theorem latestReconciliation_of_newest {record : ReconciliationRow}
    (member : record ∈ db.reconciliations) (same : record.executionId = executionId)
    (newest : ∀ other ∈ db.reconciliations, other.executionId = executionId →
      other.checkedAt ≤ record.checkedAt) :
    db.latestReconciliation executionId = some record := by
  have inside : record ∈
      (db.reconciliations.filter fun row => row.executionId = executionId).reverse := by
    simp [member, same]
  obtain ⟨found, latest⟩ := Table.exists_newest ReconciliationRow.checkedAt (fun _ => "") inside
  obtain ⟨foundMember, foundSame, others⟩ := latestReconciliation_spec latest
  obtain ⟨⟩ := item_unique distinct (mem_evidence_reconciliation.mpr ⟨foundMember, foundSame⟩)
    (mem_evidence_reconciliation.mpr ⟨member, same⟩) (newest found foundMember foundSame)
    (others record member same)
  exact latest

/-- The guard settles whatever the newest item allows. -/
theorem settles_of_newest (enabled : db.OnEnabledChain executionId)
    (authoritative : db.NewestAuthoritative executionId) : db.SettlementEvidence executionId := by
  rw [settlementEvidence_iff_latest enabled]
  obtain ⟨item, member, newest, authority⟩ := authoritative
  cases item with
  | receipt row =>
      obtain ⟨stored, same⟩ := mem_evidence_receipt.mp member
      refine .inl ⟨row, latestReceipt_of_newest distinct stored same ?_, authority⟩
      exact fun other inside ofExecution =>
        newest (.receipt other) (mem_evidence_receipt.mpr ⟨inside, ofExecution⟩)
  | reconciliation row =>
      obtain ⟨stored, same⟩ := mem_evidence_reconciliation.mp member
      refine .inr ⟨row, latestReconciliation_of_newest distinct stored same ?_, authority, ?_⟩
      · exact fun other inside ofExecution =>
          newest (.reconciliation other) (mem_evidence_reconciliation.mpr ⟨inside, ofExecution⟩)
      · exact fun receipt inside ofExecution =>
          newest (.receipt receipt) (mem_evidence_receipt.mpr ⟨inside, ofExecution⟩)

/-- The guard settles against the newest item exactly when that item is a reconciliation that
overtook an authoritative receipt. -/
theorem overtaken_iff (enabled : db.OnEnabledChain executionId) :
    db.Overtaken executionId ↔
      db.SettlementEvidence executionId ∧ ¬ db.NewestAuthoritative executionId := by
  rw [settlementEvidence_iff_latest enabled]
  constructor
  · rintro ⟨record, member, same, newest, blocked, receipt, stored, ofExecution, newestReceipt,
      authority⟩
    refine ⟨.inl ⟨receipt, latestReceipt_of_newest distinct stored ofExecution newestReceipt,
      authority⟩, ?_⟩
    rintro ⟨item, inside, newestItem, itemAuthority⟩
    have recordInside := mem_evidence_reconciliation.mpr ⟨member, same⟩
    obtain rfl := item_unique distinct inside recordInside (newest item inside)
      (newestItem _ recordInside)
    exact blocked itemAuthority
  · rintro ⟨receiptOrRecord, notNewest⟩
    rcases receiptOrRecord with ⟨receipt, latest, authority⟩ | ⟨record, latest, authority, after⟩
    · obtain ⟨stored, ofExecution, newestReceipt⟩ := latestReceipt_spec latest
      -- Some reconciliation is later, otherwise the receipt would be the newest item.
      have later : ∃ record ∈ db.reconciliations, record.executionId = executionId ∧
          receipt.observedAt < record.checkedAt := by
        by_contra none
        refine notNewest ⟨.receipt receipt, mem_evidence_receipt.mpr ⟨stored, ofExecution⟩, ?_,
          authority⟩
        rintro (other | other) inside
        · obtain ⟨member, same⟩ := mem_evidence_receipt.mp inside
          exact newestReceipt other member same
        · obtain ⟨member, same⟩ := mem_evidence_reconciliation.mp inside
          exact Int.not_lt.mp fun before => none ⟨other, member, same, before⟩
      obtain ⟨other, otherMember, otherSame, before⟩ := later
      have otherListed : other ∈
          (db.reconciliations.filter fun row => row.executionId = executionId).reverse := by
        simp [otherMember, otherSame]
      obtain ⟨record, latestRecord⟩ :=
        Table.exists_newest ReconciliationRow.checkedAt (fun _ => "") otherListed
      obtain ⟨member, same, newest⟩ := latestReconciliation_spec latestRecord
      have newestItem : ∀ item ∈ db.evidence executionId, item.instant ≤ record.checkedAt := by
        have afterReceipt : receipt.observedAt ≤ record.checkedAt :=
          Int.le_trans (Int.le_of_lt before) (newest other otherMember otherSame)
        rintro (row | row) inside
        · obtain ⟨rowMember, rowSame⟩ := mem_evidence_receipt.mp inside
          exact Int.le_trans (newestReceipt row rowMember rowSame) afterReceipt
        · obtain ⟨rowMember, rowSame⟩ := mem_evidence_reconciliation.mp inside
          exact newest row rowMember rowSame
      refine ⟨record, member, same, newestItem, fun allowed => notNewest ?_, receipt, stored,
        ofExecution, newestReceipt, authority⟩
      exact ⟨.reconciliation record, mem_evidence_reconciliation.mpr ⟨member, same⟩, newestItem,
        allowed⟩
    · obtain ⟨member, same, newest⟩ := latestReconciliation_spec latest
      refine absurd ⟨.reconciliation record, mem_evidence_reconciliation.mpr ⟨member, same⟩, ?_,
        authority⟩ notNewest
      rintro (row | row) inside
      · obtain ⟨rowMember, rowSame⟩ := mem_evidence_receipt.mp inside
        exact after row rowMember rowSame
      · obtain ⟨rowMember, rowSame⟩ := mem_evidence_reconciliation.mp inside
        exact newest row rowMember rowSame

end Distinct

end Db

/-! ## Settlements -/

/-- The settlement of a reservation follows the newest item of both histories exactly when that
item is no reconciliation that overtook an authoritative receipt. -/
theorem settlement_follows_newest_iff {db : Db} {id : ReservationId} {row : SpendReservationRow}
    (stored : db.reservation id = some row) (reserved : row.status = .reserved)
    (enabled : db.OnEnabledChain row.executionId)
    (distinct : ((db.evidence row.executionId).map EvidenceItem.instant).Nodup)
    (now : Time) {actualAmountWei : Wei}
    (valid : 0 ≤ actualAmountWei ∧ actualAmountWei ≤ row.reservedAmountWei) :
    (((∃ after, settleReservationTotal db now id actualAmountWei = .ok after) ↔
        db.NewestAuthoritative row.executionId) ↔
      ¬ db.Overtaken row.executionId) := by
  have settles : (∃ after, settleReservationTotal db now id actualAmountWei = .ok after) ↔
      db.SettlementEvidence row.executionId := by
    have inBounds : ¬ (actualAmountWei < 0 ∨ row.reservedAmountWei < actualAmountWei) := by
      rw [not_or, Int.not_lt, Int.not_lt]
      exact valid
    simp only [settleReservationTotal, stored, reserved, ne_eq, not_true_eq_false, if_false,
      bind_eq_ok, refuse_eq_ok, pure_eq_ok, not_not]
    constructor
    · rintro ⟨after, -, -, -, evidence, -⟩
      exact evidence
    · exact fun evidence => ⟨_, ⟨⟩, inBounds, ⟨⟩, evidence, rfl⟩
  rw [settles, Db.overtaken_iff distinct enabled]
  constructor
  · rintro follows ⟨evidence, notNewest⟩
    exact notNewest (follows.mp evidence)
  · intro notOvertaken
    constructor
    · exact fun evidence => by_contra fun notNewest => notOvertaken ⟨evidence, notNewest⟩
    · exact Db.settles_of_newest distinct enabled

/-! ### A reconciliation after a final receipt -/

/-- One wallet minted, and its receipt is final. -/
def receiptStored : Db :=
  Sample.after [.admission 0 (Sample.input .ethereum "run" ["w"]),
    .attempt 0 (Sample.attempt "run" "w"), .receipt 0 (Sample.receipt "run" "w")]
    (Sample.db .ethereum ["run"])

/-- A later reconciliation could not tell what became of the transaction. -/
def unresolvedAfterReceipt : Db :=
  { receiptStored with
    reconciliations :=
      [{ transactionAttemptId := .broadcast ⟨"run", "w"⟩ 0 .accepted
         executionId := ⟨"run", "w"⟩
         txHash := "0xhash"
         nonce := 0
         state := .ambiguous
         checkedAt := 1 }] }

/-- What the sample stores have in common. -/
structure SampleEvidence (db : Db) (row : SpendReservationRow) : Prop where
  stored : db.reservation ⟨"run", "w"⟩ = some row
  reserved : row.status = .reserved
  amount : row.reservedAmountWei = 100
  execution : row.executionId = ⟨"run", "w"⟩

instance (db : Db) (executionId : ExecutionId) : Decidable (db.OnEnabledChain executionId) := by
  unfold Db.OnEnabledChain
  infer_instance

theorem exists_sampleRow : ∃ row, SampleEvidence receiptStored row := by
  have facts : ∃ row ∈ receiptStored.reservation ⟨"run", "w"⟩,
      row.status = .reserved ∧ row.reservedAmountWei = 100 ∧ row.executionId = ⟨"run", "w"⟩ := by
    decide +kernel
  obtain ⟨row, stored, reserved, amount, execution⟩ := facts
  exact ⟨row, stored, reserved, amount, execution⟩

/-- With the receipt alone the settlement follows it. -/
theorem settlement_follows_receipt :
    (∃ after, settleReservationTotal receiptStored 0 ⟨"run", "w"⟩ 100 = .ok after) ↔
      receiptStored.NewestAuthoritative ⟨"run", "w"⟩ := by
  obtain ⟨row, stored, reserved, amount, execution⟩ := exists_sampleRow
  have valid : (0 : Wei) ≤ 100 ∧ (100 : Wei) ≤ row.reservedAmountWei := by rw [amount]; decide
  have follows := settlement_follows_newest_iff stored reserved
    (by rw [execution]; decide +kernel) (by rw [execution]; decide +kernel) 0 valid
  rw [execution] at follows
  refine follows.mpr ?_
  rintro ⟨record, member, -⟩
  have none : receiptStored.reconciliations = [] := by decide +kernel
  rw [none] at member
  cases member

/-- A receipt settles a reservation although a later reconciliation is not authoritative. -/
theorem settlement_ignores_later_reconciliation :
    ¬ ∀ (db : Db) (id : ReservationId) (row : SpendReservationRow) (now : Time)
        (actualAmountWei : Wei),
      db.reservation id = some row → row.status = .reserved → db.OnEnabledChain row.executionId →
      ((db.evidence row.executionId).map EvidenceItem.instant).Nodup →
      0 ≤ actualAmountWei ∧ actualAmountWei ≤ row.reservedAmountWei →
      ((∃ after, settleReservationTotal db now id actualAmountWei = .ok after) ↔
        db.NewestAuthoritative row.executionId) := by
  intro claimed
  obtain ⟨row, stored, reserved, amount, execution⟩ := exists_sampleRow
  have follows := claimed unresolvedAfterReceipt ⟨"run", "w"⟩ row 2 100 stored reserved
    (by rw [execution]; decide +kernel) (by rw [execution]; decide +kernel)
    (by rw [amount]; decide)
  rw [execution] at follows
  have settled : ∃ after ∈ (settleReservationTotal unresolvedAfterReceipt 2 ⟨"run", "w"⟩
      100).toOption, after.runs.length = 1 := by decide +kernel
  obtain ⟨after, success, -⟩ := settled
  exact absurd (follows.mp ⟨after, mem_toOption.mp success⟩) (by decide +kernel)

end MintBot
