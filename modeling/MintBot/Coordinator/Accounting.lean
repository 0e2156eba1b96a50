import MintBot.Coordinator.Facts
import MintBot.Store.Transaction

/-!
# Accounting for recorded facts

`applyAccountingToState` settles, marks or releases the reservations of a run by
the attempts and receipts that a result or an update carries.  The reservation
of a wallet is judged by the attempts of that wallet.
-/

namespace MintBot

open Fallible

/-- `setReservation`. -/
def setReservation (reservation : Reservation) (status : ReservationState)
    (actualAmountWei : Option Wei) : Except Error Reservation :=
  if reservation.status = .settled then .ok reservation
  else do
    refuse (∃ amount ∈ actualAmountWei, amount < 0 ∨ reservation.amountWei < amount)
      "INVALID_SETTLEMENT_AMOUNT"
    refuse (reservation.status = .released) "INVALID_RESERVATION_TRANSITION"
    return { reservation with
      status := status
      actualAmountWei := actualAmountWei.or reservation.actualAmountWei }

section Accounting

variable (chainId : ChainId) (attempts : List AttemptRecord) (receipts : List ReceiptRecord)

/-- The attempts of the wallet of a reservation. -/
def walletAttempts (reservation : Reservation) : List AttemptRecord :=
  attempts.filter fun attempt => toLowerCase attempt.wallet = toLowerCase reservation.wallet

/-- The receipt belongs to one of the attempts. -/
def ReceiptRecord.OfAttempts (receipt : ReceiptRecord) (attempts : List AttemptRecord) : Prop :=
  ∃ attempt ∈ attempts, attempt.executionId = receipt.executionId

instance (receipt : ReceiptRecord) (attempts : List AttemptRecord) :
    Decidable (receipt.OfAttempts attempts) := by
  unfold ReceiptRecord.OfAttempts
  infer_instance

/-- The receipt that settles a reservation: one of its first confirmed attempt,
else a failed one. -/
def settlingReceipt (reservation : Reservation) : Option ReceiptRecord :=
  let ofWallet := walletAttempts attempts reservation
  let confirmed := (ofWallet.find? fun attempt => attempt.state = .confirmed).bind fun attempt =>
    receipts.find? fun receipt => receipt.executionId = attempt.executionId ∧
      receipt.state = .confirmed ∧ receiptAuthorizesSettlement chainId receipt
  confirmed.or (receipts.find? fun receipt =>
    receipt.state = .failed ∧ receiptAuthorizesSettlement chainId receipt ∧
      receipt.OfAttempts ofWallet)

/-- The reorged receipt of a reservation. -/
def reorgReceipt (reservation : Reservation) : Option ReceiptRecord :=
  receipts.find? fun receipt =>
    receipt.state = .reorged ∧ receipt.OfAttempts (walletAttempts attempts reservation)

/-- The wallet was attempted, and every attempt failed before it had a hash. -/
def FailedUnsent (reservation : Reservation) : Prop :=
  walletAttempts attempts reservation ≠ [] ∧
    ∀ attempt ∈ walletAttempts attempts reservation,
      attempt.state = .failed ∧ attempt.hash.getD "" = ""

instance (reservation : Reservation) : Decidable (FailedUnsent attempts reservation) := by
  unfold FailedUnsent
  infer_instance

/-- One turn of the loop of `applyAccountingToState`. -/
def accountReservation (reservation : Reservation) : Except Error Reservation :=
  match settlingReceipt chainId attempts receipts reservation with
  | some receipt => setReservation reservation .settled receipt.actualSpendWei
  | none =>
      match reorgReceipt attempts receipts reservation with
      | some receipt => setReservation reservation .reorged receipt.actualSpendWei
      | none =>
          if FailedUnsent attempts reservation then setReservation reservation .released none
          else .ok reservation

/-- `applyAccountingToState`. -/
def applyAccountingToState (runId : RunId) (state : BackendState) : Except Error BackendState := do
  let reservations ← state.reservations.mapM fun reservation =>
    if reservation.runId = runId ∧ reservation.status ≠ .released then
      accountReservation chainId attempts receipts reservation
    else .ok reservation
  return { state with reservations := reservations }

end Accounting

end MintBot
