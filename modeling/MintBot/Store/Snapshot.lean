import Mathlib.Algebra.Ring.Int.Defs
import Mathlib.Data.List.Sort
import MintBot.Database.Repository

/-!
# Reading the backend state from the tables

`snapshot` reads the canonical tables as the backend sees them.  States are
translated between the two vocabularies here; rows without a known run are
invisible to the backend, as in the readers of the store.
-/

namespace MintBot

def dbRunState : CampaignState → ExecutionRunState
  | .armed => .prepared
  | .active => .active
  | .aborted => .aborted
  | .cancelled => .cancelled
  | .failed => .failed
  | .completed => .completed
  | _ => .prepared

def backendRunState : ExecutionRunState → CampaignState
  | .prepared => .armed
  | .active | .recovering => .active
  | .completed => .completed
  | .failed => .failed
  | .aborted => .aborted
  | .cancelled => .cancelled

/-- Receipt states as the backend names them. -/
def receiptState : ReceiptStatus → ExecutionState
  | .reorged => .reorged
  | .confirmed => .confirmed
  | .pending => .pending
  | .reverted | .dropped => .failed

def reconciliationResult : ReconciliationState → ReconciliationResult
  | .final => .final
  | .matched => .confirmed
  | .reorged => .reorged
  | .ambiguous | .unresolved => .unknown

def databaseReconciliationState : ReconciliationResult → ReconciliationState
  | .final => .final
  | .confirmed | .soft | .posted => .matched
  | .reorged => .reorged
  | .failed => .ambiguous
  | .unknown => .unresolved

namespace Db

variable (db : Db)

/-- `runFingerprint` of a stored run row. -/
def runDigest (row : ExecutionRunRow) : Fingerprint :=
  row.backendRequestDigest.getD row.requestFingerprint

def readRuns : List RunRecord :=
  db.runs.map fun row =>
    { id := row.id
      intentId := row.intentId
      campaignId := row.campaignId
      mode := row.mode
      requestDigest := runDigest row
      state := backendRunState row.state }

/-- The known run of an execution. -/
def runOfExecution (id : ExecutionId) : Option RunId := do
  let execution ← db.execution id
  let run ← db.run execution.runId
  pure run.id

def chainProfileForCampaign (id : CampaignId) : Option ChainId :=
  (Table.lookup CampaignRow.id id db.campaigns).map CampaignRow.chainProfileId

/-- The chain of a run, Ethereum when it cannot be found. -/
def runChain (id : RunId) : ChainId :=
  ((db.run id).bind fun run => db.chainProfileForCampaign run.campaignId).getD .ethereum

/-- Add one stored intent row to the intents read so far. -/
def addIntentRow (intents : List IntentRecord) (row : TransactionIntentRow) :
    List IntentRecord :=
  if db.run row.runId = none then intents
  else if ∃ intent ∈ intents, intent.id = row.id.intentId then
    Table.update IntentRecord.id row.id.intentId
      (fun intent => { intent with wallets := intent.wallets ++ [row.walletId.address] }) intents
  else
    intents ++
      [{ id := row.id.intentId
         runId := row.runId
         campaignId := row.campaignId
         campaignSnapshot := row.campaignSnapshot
         wallets := [row.walletId.address] }]

def readIntents : List IntentRecord :=
  db.intents.foldl db.addIntentRow []

def readAttempt (row : TransactionAttemptRow) : Option AttemptRecord := do
  let runId ← db.runOfExecution row.executionId
  let intent ← db.intent row.transactionIntentId
  pure
    { id := row.id
      executionId := row.executionId
      runId := runId
      wallet := intent.walletId.address
      nonce := row.nonce
      hash := row.txHash
      replacementOfId := none
      state := row.responseClass
      robinhoodFinality := none
      createdAt := row.attemptedAt }

def readAttempts : List AttemptRecord :=
  db.attempts.filterMap db.readAttempt

/-- The amount a receipt is read back with: the settled amount of its
execution, else its ledger entries, else the recorded accounting of the receipt
itself. -/
def actualSpendWei (row : TransactionReceiptRow) : Option Wei :=
  let settled := db.reservations.find? fun reservation =>
    reservation.executionId = row.executionId ∧ reservation.status = .settled
  let ledger := db.ledgerEntries.filter fun entry => entry.executionId = row.executionId
  match settled.bind SpendReservationRow.settledAmountWei with
  | some amount => some amount
  | none =>
      if ledger ≠ [] then some (ledger.map LedgerEntryRow.amountWei).sum
      else (db.receiptAccounting.find? fun entry => entry.receiptId = row.id).map
        ReceiptAccountingRow.actualSpendWei

def readReceipt (row : TransactionReceiptRow) : Option ReceiptRecord := do
  let runId ← db.runOfExecution row.executionId
  pure
    { id := row.id
      executionId := row.executionId
      runId := runId
      transactionAttemptId := some row.transactionAttemptId
      state := receiptState row.status
      finalityStage := some row.finalityStage
      robinhoodFinality :=
        match row.finalityStage with
        | .soft => some .soft
        | .posted => some .posted
        | .ethereumFinal => if db.runChain runId = .robinhood then some .final else none
        | .unknown => none
      blockNumber := some row.blockNumber
      blockHash := some row.blockHash
      gasUsed := row.gasUsed
      effectiveGasPrice := row.effectiveGasPrice
      l1DataFeeWei := row.l1DataFeeWei
      operatorFeeWei := row.operatorFeeWei
      actualSpendWei := db.actualSpendWei row
      observedAt := row.observedAt }

def readReceipts : List ReceiptRecord :=
  db.receipts.filterMap db.readReceipt

def readReconciliation (row : ReconciliationRow) : Option ReconciliationRecord := do
  let execution ← db.execution row.executionId
  pure
    { runId := execution.runId
      attemptId := some row.transactionAttemptId
      result := reconciliationResult row.state
      observedAt := row.checkedAt }

/-- The reconciliations by their instants.  Their ids are random, so records of
one instant keep the order they were written in. -/
def readReconciliations : List ReconciliationRecord :=
  (db.reconciliations.insertionSort fun earlier later =>
    earlier.checkedAt ≤ later.checkedAt).filterMap db.readReconciliation

def mapReservation (row : SpendReservationRow) : Reservation where
  id := row.id
  runId := ((db.execution row.executionId).map ExecutionRow.runId).getD ""
  wallet := row.walletId.address
  amountWei := row.reservedAmountWei
  actualAmountWei := row.settledAmountWei
  status :=
    match row.status with
    | .reserved => .reserved
    | .settled => .settled
    | .released | .expired => .released

def readReservations : List Reservation :=
  db.reservations.map db.mapReservation

end Db

/-- The backend state read from the tables. -/
def snapshot (db : Db) : BackendState where
  runs := db.readRuns
  intents := db.readIntents
  attempts := db.readAttempts
  receipts := db.readReceipts
  reconciliations := db.readReconciliations
  reservations := db.readReservations
  events := db.events
  killed := db.killed

/-! ## Reading back rows -/

/-- An attempt that is read from a row. -/
structure ReadAttempt (db : Db) (row : TransactionAttemptRow) (attempt : AttemptRecord) : Prop where
  id : attempt.id = row.id
  execution : attempt.executionId = row.executionId
  run : db.runOfExecution row.executionId = some attempt.runId
  hash : attempt.hash = row.txHash
  nonce : attempt.nonce = row.nonce
  state : attempt.state = row.responseClass

theorem readAttempt_of_some {db : Db} {row : TransactionAttemptRow} {attempt : AttemptRecord}
    (read : db.readAttempt row = some attempt) : ReadAttempt db row attempt := by
  simp only [Db.readAttempt, Option.bind_eq_bind, Option.bind_eq_some_iff, Option.pure_def,
    Option.some.injEq] at read
  obtain ⟨runId, owner, intent, -, rfl⟩ := read
  exact ⟨rfl, rfl, owner, rfl, rfl, rfl⟩

theorem mem_readAttempts {db : Db} {attempt : AttemptRecord} (member : attempt ∈ db.readAttempts) :
    ∃ row ∈ db.attempts, ReadAttempt db row attempt := by
  obtain ⟨row, rowMember, read⟩ := List.mem_filterMap.mp member
  exact ⟨row, rowMember, readAttempt_of_some read⟩

/-- A receipt that is read from a row. -/
structure ReadReceipt (db : Db) (row : TransactionReceiptRow) (receipt : ReceiptRecord) : Prop where
  id : receipt.id = row.id
  execution : receipt.executionId = row.executionId
  run : db.runOfExecution row.executionId = some receipt.runId
  state : receipt.state = receiptState row.status
  mined : receipt.blockNumber = some row.blockNumber

theorem readReceipt_of_some {db : Db} {row : TransactionReceiptRow} {receipt : ReceiptRecord}
    (read : db.readReceipt row = some receipt) : ReadReceipt db row receipt := by
  simp only [Db.readReceipt, Option.bind_eq_bind, Option.bind_eq_some_iff, Option.pure_def,
    Option.some.injEq] at read
  obtain ⟨runId, owner, rfl⟩ := read
  exact ⟨rfl, rfl, owner, rfl, rfl⟩

theorem mem_readReceipts {db : Db} {receipt : ReceiptRecord} (member : receipt ∈ db.readReceipts) :
    ∃ row ∈ db.receipts, ReadReceipt db row receipt := by
  obtain ⟨row, rowMember, read⟩ := List.mem_filterMap.mp member
  exact ⟨row, rowMember, readReceipt_of_some read⟩

/-- Attempts are read under the keys of their rows. -/
theorem readAttempts_ids_sublist (db : Db) :
    (db.readAttempts.map AttemptRecord.id).Sublist (db.attempts.map TransactionAttemptRow.id) :=
  Table.filterMap_keys_sublist (fun _ _ read => (readAttempt_of_some read).id) db.attempts

end MintBot
