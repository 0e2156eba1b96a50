import Mathlib
import MintBot.Library.Script
import MintBot.Store.Transaction

/-!
# Reservations and the spend ledger

The two tables that a settlement writes, with the triggers and column checks that stand before
them, and the calls that settle or release a reservation.  What the other tables say of an
execution is an input of each call: they change between the calls as they like.

Legacy reservations, which have neither an execution nor a chain, are included.
-/

namespace MintBot.Settlement

open Script

/-! ## Tables -/

/-- Amounts in the order of the component columns. -/
structure ComponentAmounts where
  mintValueWei : Wei
  l2ExecutionGasWei : Wei
  l1DataGasWei : Wei
  priorityFeeComponentWei : Wei
  replacementBudgetWei : Wei
  deriving DecidableEq, Repr

namespace ComponentAmounts

def total (amounts : ComponentAmounts) : Wei :=
  amounts.mintValueWei + amounts.l2ExecutionGasWei + amounts.l1DataGasWei +
    amounts.priorityFeeComponentWei + amounts.replacementBudgetWei

def toList (amounts : ComponentAmounts) : List Wei :=
  [amounts.mintValueWei, amounts.l2ExecutionGasWei, amounts.l1DataGasWei,
    amounts.priorityFeeComponentWei, amounts.replacementBudgetWei]

end ComponentAmounts

/-- The execution that a reservation pays for. -/
structure ReservationLink where
  executionId : ExecutionId
  transactionIntentId : IntentRowId
  chainProfileId : ChainId
  deriving DecidableEq, Repr

/-- A `spend_reservation`, with the columns that settlement reads or writes. -/
structure ReservationRow where
  id : ReservationId
  walletId : WalletId
  link : Option ReservationLink
  status : ReservationStatus
  amountWei : Wei
  reservedAmountWei : Wei
  mintValueWei : Wei
  l2ExecutionGasWei : Wei
  l1DataGasWei : Wei
  priorityFeeComponentWei : Wei
  buffers : AdmissionBuffers
  settledAmountWei : Option Wei
  settledComponents : Option ComponentAmounts
  settledAt : Option Time
  deriving DecidableEq, Repr

namespace ReservationRow

def execution (row : ReservationRow) : Option ExecutionId :=
  row.link.map ReservationLink.executionId

/-- What each component may cost, buffers included. -/
def bounds (row : ReservationRow) : ComponentAmounts where
  mintValueWei := row.mintValueWei + row.buffers.mintValueBufferWei
  l2ExecutionGasWei := row.l2ExecutionGasWei + row.buffers.l2ExecutionGasBufferWei
  l1DataGasWei := row.l1DataGasWei + row.buffers.l1DataGasBufferWei
  priorityFeeComponentWei := row.priorityFeeComponentWei + row.buffers.priorityFeeBufferWei
  replacementBudgetWei := row.buffers.replacementBudgetWei

end ReservationRow

/-- `spend_ledger_entry.entry_type`. -/
inductive EntryType
  | mint
  | gas
  | refund
  deriving DecidableEq, Repr

/-- `spend_ledger_entry.component`. -/
inductive LedgerComponent
  | total
  | mintValue
  | l2ExecutionGas
  | l1DataGas
  | priorityFee
  | replacementBudget
  | refund
  deriving DecidableEq, Repr

/-- `reservationId ':settled:' component` -/
structure LedgerEntryId where
  reservationId : ReservationId
  component : LedgerComponent
  deriving DecidableEq, Repr

structure LedgerEntry where
  id : LedgerEntryId
  walletId : WalletId
  executionId : Option ExecutionId
  reservationId : ReservationId
  entryType : EntryType
  component : LedgerComponent
  amountWei : Wei
  createdAt : Time
  deriving DecidableEq, Repr

structure Books where
  reservations : List ReservationRow
  ledger : List LedgerEntry
  deriving DecidableEq, Repr

namespace Books

def empty : Books where
  reservations := []
  ledger := []

def reservation (books : Books) (id : ReservationId) : Option ReservationRow :=
  Table.lookup ReservationRow.id id books.reservations

/-- The row of a reservation that is still reserved. -/
def reserved (books : Books) (id : ReservationId) : Option ReservationRow :=
  (books.reservation id).filter fun row => row.status = .reserved

def rewrite (books : Books) (id : ReservationId) (change : ReservationRow → ReservationRow) :
    Books :=
  { books with reservations := Table.update ReservationRow.id id change books.reservations }

end Books

/-! ## Evidence -/

/-- The newest receipt of an execution, with the chain profile of its wallet. -/
structure LatestReceipt where
  id : ReceiptId
  status : ReceiptStatus
  finalityStage : FinalityStage
  observedAt : Time
  successFinalityStage : FinalityStage
  executionEnabled : Bool
  deriving DecidableEq, Repr

structure LatestReconciliation where
  id : String
  state : ReconciliationState
  checkedAt : Time
  deriving DecidableEq, Repr

/-- What the other tables say of the executions. -/
structure Evidence where
  latestReceipt : ExecutionId → Option LatestReceipt
  latestReconciliation : ExecutionId → Option LatestReconciliation
  attempted : ExecutionId → Bool

/-- `reservation_settlement_finality_guard` accepts the evidence of an execution. -/
def Evidence.Accepts (evidence : Evidence) (execution : ExecutionId) : Prop :=
  (∃ receipt ∈ evidence.latestReceipt execution, receipt.status = .confirmed ∧
      receipt.finalityStage = receipt.successFinalityStage ∧ receipt.executionEnabled = true) ∨
    (∃ receipt ∈ evidence.latestReceipt execution,
      receipt.status = .reverted ∨ receipt.status = .dropped ∨ receipt.status = .reorged) ∨
    ∃ record ∈ evidence.latestReconciliation execution,
      (record.state = .final ∨ record.state = .reorged) ∧
        ∀ receipt ∈ evidence.latestReceipt execution, receipt.observedAt ≤ record.checkedAt

instance (evidence : Evidence) (execution : ExecutionId) :
    Decidable (evidence.Accepts execution) := by
  unfold Evidence.Accepts
  infer_instance

/-! ## Statements -/

/-- What the triggers and column checks say of the new row of an update.  Decimal columns of at
most 18 digits are added up, longer ones are not. -/
def checkUpdate (evidence : Evidence) (row : ReservationRow) : Script Error Books PUnit := do
  refuse (fun _ => row.reservedAmountWei < row.amountWei)
    "settled amount exceeds all-in reservation"
  refuse (fun _ => row.status = .settled ∧ row.settledAmountWei = none)
    "settled reservation requires component evidence"
  refuse (fun _ => row.status = .settled ∧
      ∃ execution ∈ row.execution, ¬ evidence.Accepts execution)
    "settlement requires latest authoritative finality or reconciliation"
  refuse (fun _ => (∃ amount ∈ row.settledAmountWei, amount < 0) ∨
      ∃ components ∈ row.settledComponents, ∃ amount ∈ components.toList, amount < 0)
    "settlement monetary values must be non-negative decimals"
  refuse (fun _ => ∃ components ∈ row.settledComponents, row.settledAmountWei = none ∨
      ∃ amount ∈ row.settledAmountWei, amount < 10 ^ 18 ∧
        (∀ component ∈ components.toList, component < 10 ^ 18) ∧ amount ≠ components.total)
    "settled components do not equal settled amount"
  refuse (fun _ => row.amountWei ≤ 0) "CHECK constraint failed: spend_reservation"

/-- `UPDATE spend_reservation … WHERE id = ? AND status = 'reserved'`. -/
def updateReserved (evidence : Evidence) (id : ReservationId)
    (change : ReservationRow → ReservationRow) : Script Error Books PUnit := do
  let found ← read fun books => books.reserved id
  forSome found fun row => do
    checkUpdate evidence (change row)
    write fun books => books.rewrite id change

/-- `INSERT INTO spend_ledger_entry`. -/
def insertEntry (entry : LedgerEntry) : Script Error Books PUnit := do
  refuse (fun books => ∃ other ∈ books.ledger, other.id = entry.id)
    "UNIQUE constraint failed: spend_ledger_entry.id"
  refuse (fun _ => entry.amountWei < 0) "CHECK constraint failed: spend_ledger_entry"
  write fun books => { books with ledger := books.ledger ++ [entry] }

def insertEntries : List LedgerEntry → Script Error Books PUnit
  | [] => pure ⟨⟩
  | entry :: rest => do
      insertEntry entry
      insertEntries rest

/-! ## Settlement by components -/

/-- The argument of a settlement by components. -/
structure SettlementRequest extends SettlementComponents where
  authoritativeReconciliationId : Option String
  deriving DecidableEq, Repr

def SettlementRequest.amounts (request : SettlementRequest) : ComponentAmounts where
  mintValueWei := request.actualMintValueWei
  l2ExecutionGasWei := request.actualL2ExecutionGasWei
  l1DataGasWei := request.actualL1DataGasWei
  priorityFeeComponentWei := request.actualPriorityFeeComponentWei
  replacementBudgetWei := request.actualReplacementBudgetWei

/-- The evidence checks of `settleExecutionComponentsInTransaction`. -/
def assertOutcome (evidence : Evidence) (link : ReservationLink) (request : SettlementRequest) :
    Script Error Books PUnit := do
  let latestReceipt := evidence.latestReceipt link.executionId
  let latestReconciliation := evidence.latestReconciliation link.executionId
  refuse (fun _ => latestReceipt = none ∧ latestReconciliation = none)
    "settlement requires authoritative receipt or reconciliation"
  refuse (fun _ => ∃ receipt ∈ latestReceipt, receipt.status = .confirmed ∧
      (receipt.executionEnabled = false ∨
        receipt.finalityStage ≠ receipt.successFinalityStage))
    "settlement requires enabled-chain finality"
  refuse (fun _ => ∃ receipt ∈ latestReceipt, receipt.status = .reverted ∧
      link.chainProfileId ≠ .ethereum ∧ receipt.finalityStage ≠ receipt.successFinalityStage)
    "settlement requires enabled-chain finality"
  refuse (fun _ => ∃ receipt ∈ latestReceipt, receipt.status = .pending ∧
      ¬ ∃ record ∈ latestReconciliation, receipt.observedAt ≤ record.checkedAt ∧
        (record.state = .final ∨ record.state = .reorged))
    "settlement outcome is not authoritative"
  refuse (fun _ => ∃ record ∈ latestReconciliation, record.state = .ambiguous)
    "ambiguous reconciliation cannot settle"
  refuse (fun _ => ∃ id ∈ request.authoritativeReceiptId,
      latestReceipt.map LatestReceipt.id ≠ some id)
    "settlement receipt is not the latest authoritative receipt"
  refuse (fun _ => ∃ id ∈ request.authoritativeReconciliationId,
      latestReconciliation.map LatestReconciliation.id ≠ some id)
    "settlement reconciliation is not the latest authoritative record"

/-- Each amount is within its bound; on Base the gas amounts share one envelope. -/
def ComponentAmounts.Within (amounts : ComponentAmounts) (chain : ChainId)
    (bounds : ComponentAmounts) : Prop :=
  amounts.mintValueWei ≤ bounds.mintValueWei ∧
    (if chain = .base then
      amounts.l2ExecutionGasWei + amounts.l1DataGasWei + amounts.priorityFeeComponentWei ≤
        bounds.l2ExecutionGasWei + bounds.l1DataGasWei + bounds.priorityFeeComponentWei
    else
      amounts.l2ExecutionGasWei ≤ bounds.l2ExecutionGasWei ∧
        amounts.l1DataGasWei ≤ bounds.l1DataGasWei ∧
          amounts.priorityFeeComponentWei ≤ bounds.priorityFeeComponentWei) ∧
    amounts.replacementBudgetWei ≤ bounds.replacementBudgetWei

instance (amounts : ComponentAmounts) (chain : ChainId) (bounds : ComponentAmounts) :
    Decidable (amounts.Within chain bounds) := by
  unfold ComponentAmounts.Within
  infer_instance

/-- The row once it is settled by components. -/
def ReservationRow.settleComponents (amounts : ComponentAmounts) (now : Time)
    (row : ReservationRow) : ReservationRow :=
  { row with
    status := .settled
    amountWei := amounts.total
    settledAmountWei := some amounts.total
    settledComponents := some amounts
    settledAt := some now }

/-- The entry of one component of a reservation. -/
def ReservationRow.entry (row : ReservationRow) (now : Time) (entryType : EntryType)
    (component : LedgerComponent) (amountWei : Wei) : LedgerEntry where
  id := ⟨row.id, component⟩
  walletId := row.walletId
  executionId := row.execution
  reservationId := row.id
  entryType := entryType
  component := component
  amountWei := amountWei
  createdAt := now

/-- The entries of what was paid. -/
def ReservationRow.paidEntries (row : ReservationRow) (amounts : ComponentAmounts) (now : Time) :
    List LedgerEntry :=
  [row.entry now .mint .mintValue amounts.mintValueWei,
    row.entry now .gas .l2ExecutionGas amounts.l2ExecutionGasWei,
    row.entry now .gas .l1DataGas amounts.l1DataGasWei,
    row.entry now .gas .priorityFee amounts.priorityFeeComponentWei,
    row.entry now .gas .replacementBudget amounts.replacementBudgetWei]

/-- `settleExecutionComponentsInTransaction`. -/
def settleExecutionComponentsInTransaction (evidence : Evidence) (id : ReservationId)
    (request : SettlementRequest) (now : Time) : Script Error Books PUnit := do
  let amounts := request.amounts
  refuse (fun _ => ∃ amount ∈ amounts.toList, amount < 0) "settled amounts must be non-negative"
  let row ← require (fun books => books.reserved id)
    "reservation is missing or no longer reservable"
  let link ← require (fun _ => row.link) "reservation is missing or no longer reservable"
  assertOutcome evidence link request
  refuse (fun _ => ¬ amounts.Within link.chainProfileId row.bounds)
    "settled amount exceeds reservation bound"
  refuse (fun _ => row.reservedAmountWei < amounts.total)
    "settled amount exceeds all-in reservation"
  updateReserved evidence id (ReservationRow.settleComponents amounts now)
  insertEntries (row.paidEntries amounts now)
  onlyIf (0 < row.reservedAmountWei - amounts.total)
    (insertEntry (row.entry now .refund .refund (row.reservedAmountWei - amounts.total)))

/-- `settleExecutionComponents` of the store: settling twice is allowed and changes nothing. -/
def settleExecutionComponents (evidence : Evidence) (id : ReservationId)
    (request : SettlementRequest) (now : Time) : Script Error Books PUnit := do
  let row ← require (fun books => books.reservation id) "RESERVATION_NOT_FOUND"
  onlyIf (row.status ≠ .settled) do
    refuse (fun _ => row.status ≠ .reserved) "INVALID_RESERVATION_TRANSITION"
    settleExecutionComponentsInTransaction evidence id request now

/-! ## Settlement in total, and release -/

/-- `settleReservationTotal`: the amount column never becomes zero, the settled amount may. -/
def settleReservationTotal (evidence : Evidence) (id : ReservationId) (actualAmountWei : Wei)
    (now : Time) : Script Error Books PUnit := do
  let found ← read fun books => books.reserved id
  forSome found fun row => do
    refuse (fun _ => actualAmountWei < 0 ∨ row.reservedAmountWei < actualAmountWei)
      "INVALID_SETTLEMENT_AMOUNT"
    updateReserved evidence id fun row =>
      { row with
        status := .settled
        amountWei := if actualAmountWei = 0 then row.reservedAmountWei else actualAmountWei
        settledAmountWei := some actualAmountWei
        settledAt := some now }

/-- The release of a reservation by the store. -/
def releaseReservation (evidence : Evidence) (id : ReservationId) : Script Error Books PUnit :=
  updateReserved evidence id fun row => { row with status := .released }

/-- The statuses that `transition` moves to. -/
inductive ClosingStatus
  | settled
  | released
  | expired
  deriving DecidableEq, Repr

def ClosingStatus.status : ClosingStatus → ReservationStatus
  | .settled => .settled
  | .released => .released
  | .expired => .expired

/-- `transition` of the spend reservations. -/
def transition (evidence : Evidence) (id : ReservationId) (status : ClosingStatus) (now : Time) :
    Script Error Books PUnit := do
  let row ← require (fun books => books.reserved id)
    "reservation is missing or no longer reservable"
  refuse (fun _ => status = .settled ∧ (row.link ≠ none ∨ row.mintValueWei ≠ 0 ∨
      row.l2ExecutionGasWei ≠ 0 ∨ row.l1DataGasWei ≠ 0 ∨ row.priorityFeeComponentWei ≠ 0 ∨
      row.buffers.replacementBudgetWei ≠ 0))
    "linked reservations require authoritative component settlement"
  refuse (fun _ => status ≠ .settled ∧
      ∃ execution ∈ row.execution, evidence.attempted execution = true)
    "submitted reservations cannot be released or expired"
  updateReserved evidence id fun row =>
    { row with
      status := status.status
      settledAt := if status = .settled then some now else row.settledAt
      settledAmountWei := if status = .settled then some row.amountWei else row.settledAmountWei }
  onlyIf (status = .settled) (insertEntry (row.entry now .mint .total row.amountWei))

/-! ## New reservations -/

structure NewReservation where
  id : ReservationId
  walletId : WalletId
  link : Option ReservationLink
  amountWei : Wei
  mintValueWei : Wei
  l2ExecutionGasWei : Wei
  l1DataGasWei : Wei
  priorityFeeComponentWei : Wei
  buffers : AdmissionBuffers
  deriving DecidableEq, Repr

def NewReservation.row (record : NewReservation) : ReservationRow where
  id := record.id
  walletId := record.walletId
  link := record.link
  status := .reserved
  amountWei := record.amountWei
  reservedAmountWei := record.amountWei
  mintValueWei := record.mintValueWei
  l2ExecutionGasWei := record.l2ExecutionGasWei
  l1DataGasWei := record.l1DataGasWei
  priorityFeeComponentWei := record.priorityFeeComponentWei
  buffers := record.buffers
  settledAmountWei := none
  settledComponents := none
  settledAt := none

/-- `INSERT INTO spend_reservation`, with the unique indexes and the column checks. -/
def insertReservation (record : NewReservation) : Script Error Books PUnit := do
  refuse (fun books => ∃ other ∈ books.reservations, other.id = record.id)
    "UNIQUE constraint failed: spend_reservation.id"
  refuse (fun books => ∃ link ∈ record.link, ∃ other ∈ books.reservations,
      other.execution = some link.executionId)
    "UNIQUE constraint failed: spend_reservation.execution_id"
  refuse (fun _ => record.amountWei ≤ 0 ∨ (∃ amount ∈ [record.mintValueWei,
      record.l2ExecutionGasWei, record.l1DataGasWei, record.priorityFeeComponentWei,
      record.buffers.replacementBudgetWei, record.buffers.mintValueBufferWei,
      record.buffers.l2ExecutionGasBufferWei, record.buffers.l1DataGasBufferWei,
      record.buffers.priorityFeeBufferWei], amount < 0))
    "CHECK constraint failed: spend_reservation"
  write fun books => { books with reservations := books.reservations ++ [record.row] }

/-! ## Calls -/

inductive Call
  | insertReservation (record : NewReservation)
  | settleComponents (id : ReservationId) (request : SettlementRequest)
  | settleStored (id : ReservationId) (request : SettlementRequest)
  | settleTotal (id : ReservationId) (actualAmountWei : Wei)
  | release (id : ReservationId)
  | transition (id : ReservationId) (status : ClosingStatus)
  deriving DecidableEq, Repr

/-- A call at an instant, with what the other tables say then. -/
structure TimedCall where
  call : Call
  evidence : Evidence
  now : Time

/-- The transaction of a call. -/
def TimedCall.script (timed : TimedCall) : Script Error Books PUnit :=
  immediate
    (match timed.call with
      | .insertReservation record => Settlement.insertReservation record
      | .settleComponents id request =>
          settleExecutionComponentsInTransaction timed.evidence id request timed.now
      | .settleStored id request =>
          Settlement.settleExecutionComponents timed.evidence id request timed.now
      | .settleTotal id actualAmountWei =>
          settleReservationTotal timed.evidence id actualAmountWei timed.now
      | .release id => releaseReservation timed.evidence id
      | .transition id status => Settlement.transition timed.evidence id status timed.now)

/-- The books after a call. -/
def Books.next (books : Books) (timed : TimedCall) : Books :=
  (attempt timed.script books).2

/-- The books after calls in this order. -/
def Books.after (books : Books) (calls : List TimedCall) : Books :=
  calls.foldl Books.next books

end MintBot.Settlement
