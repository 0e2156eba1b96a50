import Mathlib.Algebra.BigOperators.Group.List.Basic
import MintBot.Settlement.Conservation

/-!
# Spend summaries

`refreshSpendSummary` adds up the reservations in scope and stores the sums as a
`spend_summary`; `readSpendSummary` adds them up without storing anything.  The
summaries are append-only: the trigger before updates aborts the second branch of
the upsert, and the id of a row names its scope alone.  So a scope can be refreshed
once.  The two readers also differ in what an unsettled reservation counts as
settled.
-/

namespace MintBot.Settlement

open Script

/-! ## Sums -/

/-- `scope_type` and `scope_id`. -/
inductive SpendScope
  | wallet (id : WalletId)
  | campaign (id : CampaignId)
  | run (id : RunId)
  | period (id : String)
  | day (date : String)
  deriving DecidableEq, Repr

/-- The columns of a reservation that only the summaries read.  No update changes them. -/
structure ReservationColumns where
  campaignId : Option CampaignId
  mintPeriodId : String
  usageDate : String
  createdAt : Time
  deriving DecidableEq, Repr

/-- The sums of a summary. -/
structure SpendTotals where
  reservedAmountWei : Wei
  settledAmountWei : Wei
  refundedAmountWei : Wei
  mintValueWei : Wei
  l2ExecutionGasWei : Wei
  l1DataGasWei : Wei
  priorityFeeComponentWei : Wei
  deriving DecidableEq, Repr

def SpendTotals.toList (totals : SpendTotals) : List Wei :=
  [totals.reservedAmountWei, totals.settledAmountWei, totals.refundedAmountWei,
    totals.mintValueWei, totals.l2ExecutionGasWei, totals.l1DataGasWei,
    totals.priorityFeeComponentWei]

/-- A component column: of a settled reservation the settled one, or zero where there is none. -/
def ReservationRow.component (row : ReservationRow) (settled : ComponentAmounts → Wei)
    (reserved : Wei) : Wei :=
  if row.status = .settled then (row.settledComponents.map settled).getD 0 else reserved

/-- `total` of each field, by what an unsettled reservation counts as settled. -/
def totals (unsettled : ReservationRow → Wei) (rows : List ReservationRow) : SpendTotals where
  reservedAmountWei := (rows.map ReservationRow.reservedAmountWei).sum
  settledAmountWei := (rows.map fun row => row.settledAmountWei.getD (unsettled row)).sum
  refundedAmountWei := 0
  mintValueWei := (rows.map fun row =>
    row.component ComponentAmounts.mintValueWei row.mintValueWei).sum
  l2ExecutionGasWei := (rows.map fun row =>
    row.component ComponentAmounts.l2ExecutionGasWei row.l2ExecutionGasWei).sum
  l1DataGasWei := (rows.map fun row =>
    row.component ComponentAmounts.l1DataGasWei row.l1DataGasWei).sum
  priorityFeeComponentWei := (rows.map fun row =>
    row.component ComponentAmounts.priorityFeeComponentWei row.priorityFeeComponentWei).sum

/-- The sums of `refreshSpendSummary`. -/
def refreshTotals : List ReservationRow → SpendTotals :=
  totals ReservationRow.amountWei

/-- The sums of `readSpendSummary`. -/
def readTotals : List ReservationRow → SpendTotals :=
  totals fun _ => 0

section Scopes

variable (columns : ReservationId → ReservationColumns)

/-- The filter of a scope. -/
def InScope (scope : SpendScope) (row : ReservationRow) : Prop :=
  match scope with
  | .wallet id => row.walletId = id
  | .campaign id => (columns row.id).campaignId = some id
  | .run id => ∃ execution ∈ row.execution, execution.runId = id
  | .period id => (columns row.id).mintPeriodId = id
  | .day date => (columns row.id).usageDate = date

instance (scope : SpendScope) (row : ReservationRow) : Decidable (InScope columns scope row) := by
  cases scope <;> unfold InScope <;> infer_instance

def Books.inScope (books : Books) (scope : SpendScope) : List ReservationRow :=
  books.reservations.filter fun row => InScope columns scope row

end Scopes

/-! ## Records -/

inductive SummaryId
  | stored (scope : SpendScope)
  | read (scope : SpendScope)
  deriving DecidableEq, Repr

structure SpendSummaryRecord where
  id : SummaryId
  scope : SpendScope
  walletId : Option WalletId
  campaignId : Option CampaignId
  usageDate : Option String
  totals : SpendTotals
  sourceVersion : String
  asOf : Time
  deriving DecidableEq, Repr

/-- `UNIQUE(scope_type, scope_id, usage_date, source_version)`. -/
def SpendSummaryRecord.key (record : SpendSummaryRecord) : SpendScope × Option String × String :=
  (record.scope, record.usageDate, record.sourceVersion)

structure RefreshOptions where
  usageDate : Option String := none
  walletId : Option WalletId := none
  campaignId : Option CampaignId := none
  sourceVersion : Option String := none
  asOf : Option Time := none
  deriving DecidableEq, Repr

/-- The reservations with their ledger, and the stored summaries. -/
structure SummaryStore where
  books : Books
  summaries : List SpendSummaryRecord
  deriving DecidableEq, Repr

def SpendScope.walletId : SpendScope → Option WalletId
  | wallet id => some id
  | _ => none

def SpendScope.campaignId : SpendScope → Option CampaignId
  | campaign id => some id
  | _ => none

/-- The scope that a reader filters by: a usage date replaces the id of a period or a day. -/
def SpendScope.at (scope : SpendScope) (usageDate : Option String) : SpendScope :=
  match scope with
  | period id => period (usageDate.getD id)
  | day date => day (usageDate.getD date)
  | other => other

/-- `readSpendSummary`. -/
def readSpendSummary (columns : ReservationId → ReservationColumns) (books : Books)
    (scope : SpendScope) (usageDate : Option String) (asOf : Time) : SpendSummaryRecord where
  id := .read scope
  scope := scope
  walletId := scope.walletId
  campaignId := scope.campaignId
  usageDate :=
    match scope with
    | .period id => some (usageDate.getD id)
    | _ => none
  totals := readTotals ((books.inScope columns (scope.at usageDate)).filter fun row =>
    (columns row.id).createdAt ≤ asOf)
  sourceVersion := "phase2-read-only-v1"
  asOf := asOf

/-- A call of `refreshSpendSummary` at an instant, with the tables that its row refers to. -/
structure Refresh where
  scope : SpendScope
  options : RefreshOptions
  wallets : List WalletId
  campaigns : List CampaignId
  now : Time

/-- The summary of the reservations in scope. -/
def Refresh.summary (refresh : Refresh) (columns : ReservationId → ReservationColumns)
    (books : Books) : SpendSummaryRecord where
  id := .stored refresh.scope
  scope := refresh.scope
  walletId := refresh.options.walletId.or refresh.scope.walletId
  campaignId := refresh.options.campaignId.or refresh.scope.campaignId
  usageDate := some (refresh.options.usageDate.getD
    (match refresh.scope with
      | .day date => date
      | _ => "all"))
  totals := refreshTotals (books.inScope columns refresh.scope)
  sourceVersion := refresh.options.sourceVersion.getD "authority-v1"
  asOf := refresh.options.asOf.getD refresh.now

/-- `refreshSpendSummary`.  The upsert updates the row of its key, and the trigger before updates
aborts it whatever it writes. -/
def refreshSpendSummary (columns : ReservationId → ReservationColumns) (refresh : Refresh) :
    Script Error SummaryStore SpendSummaryRecord :=
  immediate do
    let summary ← read fun store => refresh.summary columns store.books
    refuse (fun _ => ∃ amount ∈ summary.totals.toList, amount < 0)
      "spend summary monetary values must be non-negative decimals"
    refuse (fun store => ∃ row ∈ store.summaries, row.key = summary.key)
      "spend summaries are append-only snapshots"
    refuse (fun store => ∃ row ∈ store.summaries, row.id = summary.id)
      "UNIQUE constraint failed: spend_summary.id"
    refuse (fun _ => (∃ id ∈ summary.walletId, id ∉ refresh.wallets) ∨
        ∃ id ∈ summary.campaignId, id ∉ refresh.campaigns)
      "FOREIGN KEY constraint failed"
    write fun store => { store with summaries := store.summaries ++ [summary] }
    pure summary

/-! ## Runs -/

inductive SummaryCall
  | reservations (timed : TimedCall)
  | refresh (refresh : Refresh)

namespace SummaryStore

def empty : SummaryStore where
  books := .empty
  summaries := []

variable (columns : ReservationId → ReservationColumns)

def next (store : SummaryStore) : SummaryCall → SummaryStore
  | .reservations timed => { store with books := store.books.next timed }
  | .refresh refresh => (attempt (refreshSpendSummary columns refresh) store).2

/-- The store after calls in this order. -/
def after (calls : List SummaryCall) : SummaryStore :=
  calls.foldl (next columns) empty

end SummaryStore

end MintBot.Settlement
