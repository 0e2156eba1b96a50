import MintBot.Settlement.Conservation

/-!
# Which settlements by components succeed

A reserved reservation with the evidence that the store asks for is settled by amounts within
their bounds, unless they are all zero: `amount_wei` may not be zero, and only the settlement in
total keeps the reserved amount there.
-/

namespace MintBot.Settlement

open Script

/-- The call succeeds and leaves the reservation settled for the sum of the amounts. -/
def SettlesFor (timed : TimedCall) (books : Books) (id : ReservationId)
    (amounts : ComponentAmounts) : Prop :=
  ∃ next, Ends timed.script books ⟨⟩ next ∧
    ∃ row ∈ next.reservations, row.id = id ∧ row.status = .settled ∧
      row.settledAmountWei = some amounts.total

/-- Either way to settle a reservation by components. -/
def SettlesBy (call : Call) (id : ReservationId) (request : SettlementRequest) : Prop :=
  call = .settleComponents id request ∨ call = .settleStored id request

section Boundary

variable {books next : Books} {row : ReservationRow} {link : ReservationLink}
  {request : SettlementRequest} {evidence : Evidence} {now : Time} {amounts : ComponentAmounts}

theorem ComponentAmounts.total_nonneg (nonneg : ∀ amount ∈ amounts.toList, 0 ≤ amount) :
    0 ≤ amounts.total := by
  simp only [ComponentAmounts.toList, List.forall_mem_cons] at nonneg
  obtain ⟨mint, l2, l1, priority, replacement, -⟩ := nonneg
  exact Int.add_nonneg (Int.add_nonneg (Int.add_nonneg (Int.add_nonneg mint l2) l1) priority)
    replacement

/-- Amounts that are not negative add up to zero only when each is zero. -/
theorem ComponentAmounts.total_pos_iff (nonneg : ∀ amount ∈ amounts.toList, 0 ≤ amount) :
    0 < amounts.total ↔ ∃ amount ∈ amounts.toList, amount ≠ 0 := by
  have sums : ∀ {mint l2 l1 priority replacement : Int}, 0 ≤ mint → 0 ≤ l2 → 0 ≤ l1 →
      0 ≤ priority → 0 ≤ replacement → (0 < mint + l2 + l1 + priority + replacement ↔
        mint ≠ 0 ∨ l2 ≠ 0 ∨ l1 ≠ 0 ∨ priority ≠ 0 ∨ replacement ≠ 0) := by
    intro mint l2 l1 priority replacement
    omega
  simp only [ComponentAmounts.toList, List.forall_mem_cons] at nonneg
  obtain ⟨mint, l2, l1, priority, replacement, -⟩ := nonneg
  refine (sums mint l2 l1 priority replacement).trans ?_
  simp [ComponentAmounts.toList]

/-- Amounts within their bounds add up to at most the bounds. -/
theorem ComponentAmounts.Within.total_le {chain : ChainId} {bounds : ComponentAmounts}
    (within : amounts.Within chain bounds) : amounts.total ≤ bounds.total := by
  obtain ⟨mint, gas, replacement⟩ := within
  have envelope : amounts.l2ExecutionGasWei + amounts.l1DataGasWei +
      amounts.priorityFeeComponentWei ≤ bounds.l2ExecutionGasWei + bounds.l1DataGasWei +
        bounds.priorityFeeComponentWei := by
    split at gas
    · exact gas
    · exact Int.add_le_add (Int.add_le_add gas.1 gas.2.1) gas.2.2
  have grouped : ∀ amounts : ComponentAmounts, amounts.total = amounts.mintValueWei +
      (amounts.l2ExecutionGasWei + amounts.l1DataGasWei + amounts.priorityFeeComponentWei) +
        amounts.replacementBudgetWei := fun amounts => by
    simp only [ComponentAmounts.total, Int.add_assoc]
  rw [grouped amounts, grouped bounds]
  exact Int.add_le_add (Int.add_le_add mint envelope) replacement

/-- The ledger takes the entries of a reservation that is still reserved. -/
theorem Sound.takes_entries (sound : Sound books) (member : row ∈ books.reservations)
    (pending : row.status = .reserved) (nonneg : ∀ amount ∈ amounts.toList, 0 ≤ amount) :
    ∀ entry ∈ row.settlementEntries amounts now, books.Takes entry := by
  intro entry new
  constructor
  · intro other known same
    apply (sound.no_entries member pending known).2
    rw [same]
    exact (ReservationRow.mem_settlementEntries new).2.1
  · rcases List.mem_append.mp new with paid | refunded
    · obtain ⟨-, -, -, -, -, listed⟩ := ReservationRow.mem_paidEntries paid
      exact nonneg _ listed
    · split at refunded
      · rename_i positive
        obtain rfl := List.mem_singleton.mp refunded
        exact Int.le_of_lt positive
      · cases refunded

/-- The triggers accept a row that is settled by amounts within the reserved amount, unless they
are all zero. -/
theorem rowAccepted_settleComponents (linked : row.link = some link)
    (accepts : evidence.Accepts link.executionId)
    (nonneg : ∀ amount ∈ amounts.toList, 0 ≤ amount) :
    RowAccepted evidence (row.settleComponents amounts now) ↔
      0 < amounts.total ∧ amounts.total ≤ row.reservedAmountWei := by
  constructor
  · intro accepted
    exact ⟨accepted.positive, accepted.allIn⟩
  · rintro ⟨positive, allIn⟩
    refine ⟨allIn, fun _ => nofun, ?_, ⟨?_, ?_⟩, ?_, positive⟩
    · intro _ execution paid
      have same : row.execution = some link.executionId := congrArg (Option.map _) linked
      obtain rfl : link.executionId = execution := Option.some.inj (same.symm.trans paid)
      exact accepts
    · rintro amount ⟨⟩
      exact Int.le_of_lt positive
    · rintro components ⟨⟩
      exact nonneg
    · rintro components ⟨⟩
      refine ⟨nofun, ?_⟩
      rintro amount ⟨⟩ - -
      rfl

/-- A reserved reservation with the evidence that the store asks for. -/
structure ReadyToSettle (books : Books) (row : ReservationRow) (link : ReservationLink)
    (evidence : Evidence) (request : SettlementRequest) : Prop where
  member : row ∈ books.reservations
  pending : row.status = .reserved
  linked : row.link = some link
  outcome : AuthoritativeOutcome evidence link request
  accepts : evidence.Accepts link.executionId

theorem Sound.reserved_of_mem (sound : Sound books) (member : row ∈ books.reservations)
    (pending : row.status = .reserved) : books.reserved row.id = some row := by
  refine Option.filter_eq_some_iff.mpr ⟨Table.lookup_of_mem sound.ids member, ?_⟩
  simpa using pending

theorem ends_settlesBy {call : Call} (settles : SettlesBy call row.id request)
    (reserved : books.reserved row.id = some row) :
    Ends (TimedCall.script ⟨call, evidence, now⟩) books ⟨⟩ next ↔
      Ends (settleExecutionComponentsInTransaction evidence row.id request now) books ⟨⟩ next := by
  rcases settles with rfl | rfl
  · exact ends_immediate
  · obtain ⟨found, status⟩ := Option.filter_eq_some_iff.mp reserved
    simp only [decide_eq_true_eq] at status
    refine ends_immediate.trans ?_
    dsimp only [settleExecutionComponents]
    rw [ends_require_bind]
    constructor
    · rintro ⟨again, foundAgain, ran⟩
      obtain rfl := Option.some.inj (found.symm.trans foundAgain)
      rcases ends_onlyIf.mp ran with ⟨-, settled⟩ | ⟨unsettled, -⟩
      · rw [ends_refuse_bind] at settled
        exact settled.2
      · exact absurd (status ▸ nofun) unsettled
    · intro settled
      refine ⟨row, found, ends_onlyIf.mpr (.inl ⟨status ▸ nofun, ?_⟩)⟩
      rw [ends_refuse_bind]
      exact ⟨not_not.mpr status, settled⟩

/-- A ready reservation is settled exactly by amounts that are not all zero and add up to at most
the reserved amount. -/
theorem Sound.settles_iff (sound : Sound books) {call : Call}
    (settles : SettlesBy call row.id request)
    (ready : ReadyToSettle books row link evidence request)
    (nonneg : ∀ amount ∈ request.amounts.toList, 0 ≤ amount)
    (within : request.amounts.Within link.chainProfileId row.bounds) :
    SettlesFor ⟨call, evidence, now⟩ books row.id request.amounts ↔
      (∃ amount ∈ request.amounts.toList, amount ≠ 0) ∧
        request.amounts.total ≤ row.reservedAmountWei := by
  have reserved := sound.reserved_of_mem ready.member ready.pending
  have accepted : RowAccepted evidence (row.settleComponents request.amounts now) ↔
      0 < request.amounts.total ∧ request.amounts.total ≤ row.reservedAmountWei :=
    rowAccepted_settleComponents ready.linked ready.accepts nonneg
  rw [← ComponentAmounts.total_pos_iff nonneg, ← accepted]
  constructor
  · rintro ⟨next, ended, -⟩
    obtain ⟨again, linkAgain, found, -, settleable, -⟩ :=
      ends_settleExecutionComponentsInTransaction.mp ((ends_settlesBy settles reserved).mp ended)
    obtain rfl := Option.some.inj (reserved.symm.trans found)
    exact settleable.accepted
  · intro rowAccepted
    refine ⟨_, (ends_settlesBy settles reserved).mpr
      (ends_settleExecutionComponentsInTransaction.mpr ⟨row, link, reserved, ready.linked,
        ⟨nonneg, ready.outcome, within, (accepted.mp rowAccepted).2, rowAccepted⟩,
        sound.takes_entries ready.member ready.pending nonneg, rfl⟩), ?_⟩
    exact ⟨row.settleComponents request.amounts now,
      (sound.mem_rewrite reserved).mpr (.inr rfl), rfl, rfl, rfl⟩

/-- When the reserved amount covers the bounds, every vector within them settles but zero. -/
theorem Sound.settles_of_covered (sound : Sound books) {call : Call}
    (settles : SettlesBy call row.id request)
    (ready : ReadyToSettle books row link evidence request)
    (nonneg : ∀ amount ∈ request.amounts.toList, 0 ≤ amount)
    (within : request.amounts.Within link.chainProfileId row.bounds)
    (covered : row.bounds.total ≤ row.reservedAmountWei) :
    SettlesFor ⟨call, evidence, now⟩ books row.id request.amounts ↔
      ∃ amount ∈ request.amounts.toList, amount ≠ 0 :=
  (sound.settles_iff settles ready nonneg within).trans
    (and_iff_left (Int.le_trans within.total_le covered))

/-- In the books of any run, amounts within their bounds settle a ready reservation exactly when
they are not all zero and add up to at most the reserved amount. -/
theorem settlesFor_iff (calls : List TimedCall) (call : Call)
    (settles : SettlesBy call row.id request)
    (ready : ReadyToSettle (Books.empty.after calls) row link evidence request)
    (nonneg : ∀ amount ∈ request.amounts.toList, 0 ≤ amount)
    (within : request.amounts.Within link.chainProfileId row.bounds) :
    SettlesFor ⟨call, evidence, now⟩ (Books.empty.after calls) row.id request.amounts ↔
      (∃ amount ∈ request.amounts.toList, amount ≠ 0) ∧
        request.amounts.total ≤ row.reservedAmountWei :=
  (sound_empty.after calls).settles_iff settles ready nonneg within

end Boundary

/-! ## A reservation that cost nothing -/

def freeLink : ReservationLink where
  executionId := ⟨"run", "0xa1"⟩
  transactionIntentId := ⟨"intent", "0xa1"⟩
  chainProfileId := .ethereum

/-- A reservation of 100 wei for the fees of a free mint. -/
def freeReservation : NewReservation where
  id := ⟨"run", "0xa1"⟩
  walletId := ⟨.ethereum, "0xa1"⟩
  link := some freeLink
  amountWei := 100
  mintValueWei := 0
  l2ExecutionGasWei := 80
  l1DataGasWei := 0
  priorityFeeComponentWei := 20
  buffers := phase1ZeroAdmissionBuffers

/-- The newest receipt of every execution has this status. -/
def evidenceOf (status : ReceiptStatus) : Evidence where
  latestReceipt _ := some
    { id := .other "receipt", status := status, finalityStage := .unknown, observedAt := 1
      successFinalityStage := .ethereumFinal, executionEnabled := true }
  latestReconciliation _ := none
  attempted _ := true

/-- Settle for gas only. -/
def gasRequest (l2ExecutionGasWei : Wei) : SettlementRequest where
  actualMintValueWei := 0
  actualL2ExecutionGasWei := l2ExecutionGasWei
  actualL1DataGasWei := 0
  actualPriorityFeeComponentWei := 0
  actualReplacementBudgetWei := 0
  authoritativeReceiptId := none
  authoritativeReconciliationId := none

def freeCalls : List TimedCall :=
  [⟨.insertReservation freeReservation, evidenceOf .pending, 0⟩]

theorem freeReservation_ready {status : ReceiptStatus}
    (ended : status = .reverted ∨ status = .dropped) (l2ExecutionGasWei : Wei) :
    ReadyToSettle (Books.empty.after freeCalls) freeReservation.row freeLink (evidenceOf status)
      (gasRequest l2ExecutionGasWei) := by
  refine ⟨by decide, rfl, rfl, ?_, Or.inr (.inl ⟨_, rfl, ended.imp_right .inl⟩)⟩
  constructor
  · rintro ⟨⟨⟩, -⟩
  · rintro receipt ⟨⟩ rfl
    rcases ended with impossible | impossible <;> cases impossible
  · exact fun _ _ _ other => absurd rfl other
  · rintro receipt ⟨⟩ rfl
    rcases ended with impossible | impossible <;> cases impossible
  · rintro record ⟨⟩
  · rintro id ⟨⟩
  · rintro id ⟨⟩

/-- The reservation of a reverted transaction is settled for its gas. -/
theorem settlesFor_reverted :
    SettlesFor ⟨.settleComponents ⟨"run", "0xa1"⟩ (gasRequest 30), evidenceOf .reverted, 1⟩
      (Books.empty.after freeCalls) ⟨"run", "0xa1"⟩ (gasRequest 30).amounts :=
  (settlesFor_iff freeCalls _ (.inl rfl) (freeReservation_ready (.inl rfl) 30) (by decide)
    (by decide)).mpr (by decide)

/-- That of a dropped transaction, which cost nothing, is ready and within its bounds, and is
refused by the column check. -/
theorem settlesFor_nothing :
    (ReadyToSettle (Books.empty.after freeCalls) freeReservation.row freeLink
        (evidenceOf .dropped) (gasRequest 0) ∧
      (∀ amount ∈ (gasRequest 0).amounts.toList, 0 ≤ amount) ∧
        (gasRequest 0).amounts.Within .ethereum freeReservation.row.bounds) ∧
    ¬ SettlesFor ⟨.settleComponents ⟨"run", "0xa1"⟩ (gasRequest 0), evidenceOf .dropped, 1⟩
      (Books.empty.after freeCalls) ⟨"run", "0xa1"⟩ (gasRequest 0).amounts := by
  refine ⟨⟨freeReservation_ready (.inr rfl) 0, by decide, by decide⟩, ?_⟩
  rintro ⟨next, ended, -⟩
  have refused : (attempt (TimedCall.script ⟨.settleComponents ⟨"run", "0xa1"⟩ (gasRequest 0),
      evidenceOf .dropped, 1⟩) (Books.empty.after freeCalls)).1 =
        .error "CHECK constraint failed: spend_reservation" := by
    decide +kernel
  rw [ended] at refused
  cases refused

end MintBot.Settlement
