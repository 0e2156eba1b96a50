import MintBot.Settlement.Books

/-!
# What a call does to the books

Each statement succeeds under conditions that are named here, and a call that succeeds does one of
six things: nothing, a new reservation, a settlement by components, a settlement in total, a legacy
settlement, or a release.
-/

namespace MintBot.Settlement

open Script

/-! ## Statements that succeed -/

/-- What the triggers and column checks ask of the new row of an update. -/
structure RowAccepted (evidence : Evidence) (row : ReservationRow) : Prop where
  allIn : row.amountWei ≤ row.reservedAmountWei
  amount : row.status = .settled → row.settledAmountWei ≠ none
  finality : row.status = .settled → ∀ execution ∈ row.execution, evidence.Accepts execution
  nonneg : (∀ amount ∈ row.settledAmountWei, 0 ≤ amount) ∧
    ∀ components ∈ row.settledComponents, ∀ amount ∈ components.toList, 0 ≤ amount
  sum : ∀ components ∈ row.settledComponents, row.settledAmountWei ≠ none ∧
    ∀ amount ∈ row.settledAmountWei, amount < 10 ^ 18 →
      (∀ component ∈ components.toList, component < 10 ^ 18) → amount = components.total
  positive : 0 < row.amountWei

/-- The evidence that the store asks for before a settlement by components. -/
structure AuthoritativeOutcome (evidence : Evidence) (link : ReservationLink)
    (request : SettlementRequest) : Prop where
  present : ¬ (evidence.latestReceipt link.executionId = none ∧
    evidence.latestReconciliation link.executionId = none)
  confirmed : ∀ receipt ∈ evidence.latestReceipt link.executionId, receipt.status = .confirmed →
    receipt.executionEnabled = true ∧ receipt.finalityStage = receipt.successFinalityStage
  reverted : ∀ receipt ∈ evidence.latestReceipt link.executionId, receipt.status = .reverted →
    link.chainProfileId ≠ .ethereum → receipt.finalityStage = receipt.successFinalityStage
  pending : ∀ receipt ∈ evidence.latestReceipt link.executionId, receipt.status = .pending →
    ∃ record ∈ evidence.latestReconciliation link.executionId,
      receipt.observedAt ≤ record.checkedAt ∧ (record.state = .final ∨ record.state = .reorged)
  unambiguous : ∀ record ∈ evidence.latestReconciliation link.executionId,
    record.state ≠ .ambiguous
  receipt : ∀ id ∈ request.authoritativeReceiptId,
    (evidence.latestReceipt link.executionId).map LatestReceipt.id = some id
  reconciliation : ∀ id ∈ request.authoritativeReconciliationId,
    (evidence.latestReconciliation link.executionId).map LatestReconciliation.id = some id

section Statements

variable {evidence : Evidence} {books next : Books} {value : PUnit} {id : ReservationId}

theorem ends_checkUpdate {row : ReservationRow} :
    Ends (checkUpdate evidence row) books value next ↔ RowAccepted evidence row ∧ next = books := by
  simp only [checkUpdate, ends_refuse_bind, ends_refuse]
  constructor
  · rintro ⟨allIn, amount, finality, nonneg, sum, positive, rfl⟩
    push Not at allIn amount finality nonneg sum positive
    exact ⟨⟨allIn, amount, finality, nonneg, sum, positive⟩, rfl⟩
  · rintro ⟨⟨allIn, amount, finality, nonneg, sum, positive⟩, rfl⟩
    refine ⟨?_, ?_, ?_, ?_, ?_, ?_, rfl⟩
    all_goals push Not
    · exact allIn
    · exact amount
    · exact finality
    · exact nonneg
    · exact sum
    · exact positive

theorem ends_assertOutcome {link : ReservationLink} {request : SettlementRequest} :
    Ends (assertOutcome evidence link request) books value next ↔
      AuthoritativeOutcome evidence link request ∧ next = books := by
  simp only [assertOutcome, ends_refuse_bind, ends_refuse]
  constructor
  · rintro ⟨present, confirmed, reverted, pending, unambiguous, receipt, reconciliation, rfl⟩
    push Not at confirmed reverted unambiguous receipt reconciliation
    refine ⟨⟨present, ?_, reverted, ?_, unambiguous, receipt, reconciliation⟩, rfl⟩
    · intro newest found status
      obtain ⟨enabled, stage⟩ := confirmed newest found status
      exact ⟨by simpa using enabled, stage⟩
    · intro newest found status
      by_contra none
      exact pending ⟨newest, found, status, none⟩
  · rintro ⟨⟨present, confirmed, reverted, pending, unambiguous, receipt, reconciliation⟩, rfl⟩
    refine ⟨present, ?_, ?_, ?_, ?_, ?_, ?_, rfl⟩
    · rintro ⟨newest, found, status, disabled | stage⟩
      · exact absurd (confirmed newest found status).1 (by simp [disabled])
      · exact stage (confirmed newest found status).2
    · rintro ⟨newest, found, status, chain, stage⟩
      exact stage (reverted newest found status chain)
    · rintro ⟨newest, found, status, none⟩
      exact none (pending newest found status)
    · rintro ⟨record, found, ambiguous⟩
      exact unambiguous record found ambiguous
    · rintro ⟨named, found, differ⟩
      exact differ (receipt named found)
    · rintro ⟨named, found, differ⟩
      exact differ (reconciliation named found)

theorem ends_updateReserved {change : ReservationRow → ReservationRow} :
    Ends (updateReserved evidence id change) books value next ↔
      (∃ row, books.reserved id = some row ∧ RowAccepted evidence (change row) ∧
        next = books.rewrite id change) ∨ books.reserved id = none ∧ next = books := by
  rw [updateReserved, ends_read_bind]
  simp only [ends_forSome, ends_bind, ends_checkUpdate, ends_write]
  refine or_congr_left (exists_congr fun row => and_congr_right fun _ => ?_)
  constructor
  · rintro ⟨_, _, ⟨accepted, rfl⟩, rfl⟩
    exact ⟨accepted, rfl⟩
  · rintro ⟨accepted, rfl⟩
    exact ⟨⟨⟩, books, ⟨accepted, rfl⟩, rfl⟩

/-- An entry that the ledger takes: its id is new and its amount is not negative. -/
def Books.Takes (books : Books) (entry : LedgerEntry) : Prop :=
  (∀ other ∈ books.ledger, other.id ≠ entry.id) ∧ 0 ≤ entry.amountWei

theorem ends_insertEntry {entry : LedgerEntry} :
    Ends (insertEntry entry) books value next ↔
      books.Takes entry ∧ next = { books with ledger := books.ledger ++ [entry] } := by
  simp only [insertEntry, ends_refuse_bind, ends_write, Books.Takes]
  push Not
  exact and_assoc.symm

theorem ends_insertEntries {entries : List LedgerEntry} :
    Ends (insertEntries entries) books value next ↔
      (entries.map LedgerEntry.id).Nodup ∧ (∀ entry ∈ entries, books.Takes entry) ∧
        next = { books with ledger := books.ledger ++ entries } := by
  induction entries generalizing books with
  | nil => simp [insertEntries, ends_pure]
  | cons entry rest inductionHypothesis =>
      simp only [insertEntries, ends_bind, ends_insertEntry, inductionHypothesis, List.map_cons,
        List.nodup_cons, List.mem_cons, forall_eq_or_imp]
      constructor
      · rintro ⟨_, _, ⟨takes, rfl⟩, distinct, others, rfl⟩
        refine ⟨⟨?_, distinct⟩, ⟨takes, ?_⟩, by simp⟩
        · intro repeated
          obtain ⟨other, member, same⟩ := List.mem_map.mp repeated
          exact (others other member).1 entry (by simp) same.symm
        · intro other member
          exact ⟨fun earlier known => (others other member).1 earlier (by simp [known]),
            (others other member).2⟩
      · rintro ⟨⟨absent, distinct⟩, ⟨takes, others⟩, rfl⟩
        refine ⟨⟨⟩, _, ⟨takes, rfl⟩, distinct, ?_, by simp⟩
        intro other member
        refine ⟨?_, (others other member).2⟩
        intro earlier known same
        rcases List.mem_append.mp known with before | last
        · exact (others other member).1 earlier before same
        · obtain rfl := List.mem_singleton.mp last
          exact absent (same ▸ List.mem_map_of_mem member)

end Statements

/-! ## A settlement by components -/

/-- Every entry of a settlement by components; nothing is refunded when all was spent. -/
def ReservationRow.settlementEntries (row : ReservationRow) (amounts : ComponentAmounts)
    (now : Time) : List LedgerEntry :=
  row.paidEntries amounts now ++
    if 0 < row.reservedAmountWei - amounts.total then
      [row.entry now .refund .refund (row.reservedAmountWei - amounts.total)]
    else []

/-- What a settlement by components asks of a linked reservation. -/
structure Settleable (evidence : Evidence) (row : ReservationRow) (link : ReservationLink)
    (request : SettlementRequest) (now : Time) : Prop where
  nonneg : ∀ amount ∈ request.amounts.toList, 0 ≤ amount
  outcome : AuthoritativeOutcome evidence link request
  within : request.amounts.Within link.chainProfileId row.bounds
  allIn : request.amounts.total ≤ row.reservedAmountWei
  accepted : RowAccepted evidence (row.settleComponents request.amounts now)

section Components

variable {evidence : Evidence} {books next : Books} {value : PUnit} {id : ReservationId}
  {request : SettlementRequest} {now : Time}

theorem ReservationRow.paidEntries_distinct (row : ReservationRow) (amounts : ComponentAmounts)
    (now : Time) : ((row.paidEntries amounts now).map LedgerEntry.id).Nodup := by
  simp [ReservationRow.paidEntries, ReservationRow.entry]

theorem ReservationRow.mem_paidEntries {row : ReservationRow} {amounts : ComponentAmounts}
    {now : Time} {entry : LedgerEntry} (member : entry ∈ row.paidEntries amounts now) :
    entry.reservationId = row.id ∧ entry.id.reservationId = row.id ∧
      entry.executionId = row.execution ∧ entry.component = entry.id.component ∧
        entry.component ≠ .refund ∧ entry.amountWei ∈ amounts.toList := by
  simp only [ReservationRow.paidEntries, List.mem_cons, List.not_mem_nil, or_false] at member
  rcases member with rfl | rfl | rfl | rfl | rfl <;>
    simp [ReservationRow.entry, ComponentAmounts.toList]

/-- The entries are written when the ledger takes each of them. -/
theorem ends_settlementEntries {row : ReservationRow} {amounts : ComponentAmounts} :
    Ends (insertEntries (row.paidEntries amounts now) >>= fun _ =>
        onlyIf (0 < row.reservedAmountWei - amounts.total)
          (insertEntry (row.entry now .refund .refund (row.reservedAmountWei - amounts.total))))
        books value next ↔
      (∀ entry ∈ row.settlementEntries amounts now, books.Takes entry) ∧
        next = { books with ledger := books.ledger ++ row.settlementEntries amounts now } := by
  simp only [ends_bind, ends_insertEntries, ends_onlyIf, ends_insertEntry,
    ReservationRow.settlementEntries]
  by_cases refunded : 0 < row.reservedAmountWei - amounts.total
  · simp only [refunded, if_true, true_and, not_true_eq_false, false_and, or_false,
      List.forall_mem_append, List.forall_mem_singleton]
    constructor
    · rintro ⟨_, _, ⟨-, paid, rfl⟩, ⟨unknown, nonneg⟩, rfl⟩
      exact ⟨⟨paid, fun other known => unknown other (List.mem_append_left _ known), nonneg⟩,
        by simp⟩
    · rintro ⟨⟨paid, unknown, nonneg⟩, rfl⟩
      refine ⟨⟨⟩, _, ⟨row.paidEntries_distinct amounts now, paid, rfl⟩, ⟨?_, nonneg⟩, by simp⟩
      intro other known same
      rcases List.mem_append.mp known with before | new
      · exact unknown other before same
      · obtain ⟨-, -, -, component, kind, -⟩ := ReservationRow.mem_paidEntries new
        exact kind (component.trans (congrArg LedgerEntryId.component same))
  · simp only [refunded, if_false, false_and, false_or, not_false_eq_true, true_and,
      List.append_nil]
    constructor
    · rintro ⟨_, _, ⟨-, paid, rfl⟩, rfl⟩
      exact ⟨paid, rfl⟩
    · rintro ⟨paid, rfl⟩
      exact ⟨⟨⟩, _, ⟨row.paidEntries_distinct amounts now, paid, rfl⟩, rfl⟩

/-- A settlement by components succeeds under these conditions, and then writes the row and all
entries. -/
theorem ends_settleExecutionComponentsInTransaction :
    Ends (settleExecutionComponentsInTransaction evidence id request now) books value next ↔
      ∃ row link, books.reserved id = some row ∧ row.link = some link ∧
        Settleable evidence row link request now ∧
        (∀ entry ∈ row.settlementEntries request.amounts now, books.Takes entry) ∧
        next = { books.rewrite id (ReservationRow.settleComponents request.amounts now) with
          ledger := books.ledger ++ row.settlementEntries request.amounts now } := by
  dsimp only [settleExecutionComponentsInTransaction]
  rw [ends_refuse_bind, ends_require_bind]
  constructor
  · rintro ⟨nonneg, row, found, rest⟩
    rw [ends_require_bind] at rest
    obtain ⟨link, linked, rest⟩ := rest
    rw [ends_bind] at rest
    obtain ⟨_, _, asserted, rest⟩ := rest
    obtain ⟨outcome, rfl⟩ := ends_assertOutcome.mp asserted
    rw [ends_refuse_bind, ends_refuse_bind, ends_bind] at rest
    obtain ⟨within, allIn, _, _, updated, rest⟩ := rest
    obtain ⟨written, wrote⟩ := ends_settlementEntries.mp rest
    push Not at nonneg within allIn
    rcases ends_updateReserved.mp updated with ⟨again, foundAgain, accepted, rfl⟩ | ⟨none, -⟩
    · obtain rfl := Option.some.inj (found.symm.trans foundAgain)
      exact ⟨row, link, found, linked, ⟨nonneg, outcome, within, allIn, accepted⟩, written, wrote⟩
    · rw [found] at none
      cases none
  · rintro ⟨row, link, found, linked, ⟨nonneg, outcome, within, allIn, accepted⟩, written, rfl⟩
    refine ⟨by push Not; exact nonneg, row, found, ?_⟩
    rw [ends_require_bind]
    refine ⟨link, linked, ?_⟩
    rw [ends_bind]
    refine ⟨⟨⟩, books, ends_assertOutcome.mpr ⟨outcome, rfl⟩, ?_⟩
    rw [ends_refuse_bind, ends_refuse_bind, ends_bind]
    refine ⟨not_not.mpr within, Int.not_lt.mpr allIn, ⟨⟩, _,
      ends_updateReserved.mpr (.inl ⟨row, found, accepted, rfl⟩), ?_⟩
    exact ends_settlementEntries.mpr ⟨written, rfl⟩

end Components

/-! ## Effects -/

/-- How a reserved row is closed, and the entries that go with it. -/
inductive Closing (row : ReservationRow) : ReservationRow → List LedgerEntry → Prop
  | components {link : ReservationLink} (amounts : ComponentAmounts) (now : Time)
      (linked : row.link = some link) (nonneg : ∀ amount ∈ amounts.toList, 0 ≤ amount)
      (within : amounts.Within link.chainProfileId row.bounds)
      (allIn : amounts.total ≤ row.reservedAmountWei) :
      Closing row (row.settleComponents amounts now) (row.settlementEntries amounts now)
  | total (amountWei actualAmountWei : Wei) (now : Time) :
      Closing row
        { row with
          status := .settled
          amountWei := amountWei
          settledAmountWei := some actualAmountWei
          settledAt := some now } []
  | legacy (now : Time) (unlinked : row.link = none) :
      Closing row
        { row with
          status := .settled
          settledAmountWei := some row.amountWei
          settledAt := some now }
        [row.entry now .mint .total row.amountWei]
  | closed (status : ReservationStatus) (closing : status = .released ∨ status = .expired) :
      Closing row { row with status := status } []

/-- What a call that succeeds does to the books. -/
inductive Effect (books : Books) : Books → Prop
  | unchanged : Effect books books
  | inserted (record : NewReservation) (fresh : ∀ other ∈ books.reservations, other.id ≠ record.id)
      (alone : ∀ link ∈ record.link, ∀ other ∈ books.reservations,
        other.execution ≠ some link.executionId)
      (positive : 0 < record.amountWei) :
      Effect books { books with reservations := books.reservations ++ [record.row] }
  | closed (id : ReservationId) (change : ReservationRow → ReservationRow) {row : ReservationRow}
      {entries : List LedgerEntry} (found : books.reserved id = some row)
      (closing : Closing row (change row) entries) :
      Effect books { books.rewrite id change with ledger := books.ledger ++ entries }

section Calls

variable {evidence : Evidence} {books next : Books} {value : PUnit} {id : ReservationId}
  {now : Time}

theorem settleInTransaction_effect {request : SettlementRequest}
    (ended : Ends (settleExecutionComponentsInTransaction evidence id request now) books value
      next) : Effect books next := by
  obtain ⟨row, link, found, linked, settleable, -, rfl⟩ :=
    ends_settleExecutionComponentsInTransaction.mp ended
  exact .closed id _ found
    (.components request.amounts now linked settleable.nonneg settleable.within settleable.allIn)

/-- An update of a reserved row that writes no entry. -/
theorem updateReserved_effect {change : ReservationRow → ReservationRow}
    (closing : ∀ row, Closing row (change row) [])
    (ended : Ends (updateReserved evidence id change) books value next) : Effect books next := by
  rcases ends_updateReserved.mp ended with ⟨row, found, -, rfl⟩ | ⟨-, rfl⟩
  · have effect := Effect.closed id change found (closing row)
    rwa [List.append_nil] at effect
  · exact .unchanged

theorem settleReservationTotal_effect {actualAmountWei : Wei}
    (ended : Ends (settleReservationTotal evidence id actualAmountWei now) books value next) :
    Effect books next := by
  rw [settleReservationTotal, ends_read_bind] at ended
  rcases ends_forSome.mp ended with ⟨row, found, ran⟩ | ⟨-, rfl⟩
  · rw [ends_refuse_bind] at ran
    exact updateReserved_effect (fun row => .total _ actualAmountWei now) ran.2
  · exact .unchanged

theorem transition_effect {status : ClosingStatus}
    (ended : Ends (transition evidence id status now) books value next) : Effect books next := by
  rw [transition, ends_require_bind] at ended
  obtain ⟨row, found, ended⟩ := ended
  rw [ends_refuse_bind, ends_refuse_bind, ends_bind] at ended
  obtain ⟨legacy, -, _, middle, updated, ended⟩ := ended
  rcases ends_updateReserved.mp updated with ⟨again, foundAgain, -, rfl⟩ | ⟨none, -⟩
  · obtain rfl := Option.some.inj (found.symm.trans foundAgain)
    rcases ends_onlyIf.mp ended with ⟨rfl, inserted⟩ | ⟨other, rfl⟩
    · obtain ⟨-, rfl⟩ := ends_insertEntry.mp inserted
      push Not at legacy
      exact .closed id _ found (.legacy now (legacy rfl).1)
    · have closing : Closing row
          { row with
            status := status.status
            settledAt := if status = .settled then some now else row.settledAt
            settledAmountWei :=
              if status = .settled then some row.amountWei else row.settledAmountWei } [] := by
        rw [if_neg other, if_neg other]
        refine .closed status.status ?_
        cases status with
        | settled => exact absurd rfl other
        | released => exact .inl rfl
        | expired => exact .inr rfl
      have effect := Effect.closed id
        (fun row =>
          { row with
            status := status.status
            settledAt := if status = .settled then some now else row.settledAt
            settledAmountWei :=
              if status = .settled then some row.amountWei else row.settledAmountWei })
        found closing
      rwa [List.append_nil] at effect
  · rw [found] at none
    cases none

theorem insertReservation_effect {record : NewReservation}
    (ended : Ends (insertReservation record) books value next) : Effect books next := by
  rw [insertReservation, ends_refuse_bind, ends_refuse_bind, ends_refuse_bind, ends_write] at ended
  obtain ⟨fresh, alone, amounts, rfl⟩ := ended
  push Not at fresh alone amounts
  exact .inserted record fresh alone amounts.1

/-- Every call that succeeds has one of these effects. -/
theorem TimedCall.effect {timed : TimedCall} (ended : Ends timed.script books value next) :
    Effect books next := by
  rcases timed with ⟨call, evidence, now⟩
  have ran := ends_immediate.mp ended
  cases call with
  | insertReservation record => exact insertReservation_effect ran
  | settleComponents id request => exact settleInTransaction_effect ran
  | settleStored id request =>
      dsimp only [settleExecutionComponents] at ran
      rw [ends_require_bind] at ran
      obtain ⟨row, -, ran⟩ := ran
      rcases ends_onlyIf.mp ran with ⟨-, settled⟩ | ⟨-, rfl⟩
      · rw [ends_refuse_bind] at settled
        exact settleInTransaction_effect settled.2
      · exact .unchanged
  | settleTotal id actualAmountWei => exact settleReservationTotal_effect ran
  | release id =>
      exact updateReserved_effect (fun row => .closed .released (.inl rfl)) ran
  | transition id status => exact transition_effect ran

/-- A call that fails leaves the books as they were. -/
theorem TimedCall.undone (timed : TimedCall) : Undone timed.script :=
  Undone.immediate _

/-- Whatever a call answers, the books have one of these effects. -/
theorem Books.next_effect (books : Books) (timed : TimedCall) : Effect books (books.next timed) := by
  rcases ran : attempt timed.script books with ⟨failure | result, middle⟩
  · have same := timed.undone books failure middle ran
    rw [Books.next, ran, same]
    exact .unchanged
  · rw [Books.next, ran]
    exact TimedCall.effect ran

end Calls

end MintBot.Settlement
