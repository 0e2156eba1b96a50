import MintBot.Library.Machine
import MintBot.Store.Admission
import MintBot.Store.Transaction

/-!
# Store operations

The operations that processes run against the store, as the commands of a
machine on the database.  Each is one transaction: it commits as a whole or
leaves the database as it was.  Runs of the machine are the interleavings of
any number of callers.
-/

namespace MintBot

open Fallible

/-- An operation on the store, with the clock reading it takes. -/
inductive StoreOp
  | admission (now : Time) (input : CanonicalAdmissionInput)
  | attempt (now : Time) (input : EngineAttempt)
  | receipt (now : Time) (input : EngineReceipt)
  | transact (now : Time) (mutate : BackendState → Except Error BackendState)
  | settleComponents (now : Time) (id : ReservationId) (components : SettlementComponents)
  | settleTotal (now : Time) (id : ReservationId) (actualAmountWei : Wei)
  | transitionReservation (id : ReservationId) (status : ReservationStatus)
  | abortRemaining
  | abortRunIfUnsent (runId : RunId)
  | setKillSwitch (engaged : Bool)

namespace StoreOp

/-- Run an operation under the fleet policy of the store. -/
def step (fleetPolicy : Option FleetSpendPolicy) (op : StoreOp) (db : Db) : Except Error Db :=
  match op with
  | .admission now input => (admitExecution fleetPolicy db now input).map Prod.fst
  | .attempt now input => persistEngineAttempt fleetPolicy db now input
  | .receipt now input => persistEngineReceipt fleetPolicy db now input
  | .transact now mutate => transaction fleetPolicy now db mutate
  | .settleComponents now id components => settleExecutionComponents db now id components
  | .settleTotal now id actualAmountWei => settleReservationTotal db now id actualAmountWei
  | .transitionReservation id status => MintBot.transitionReservation db id status
  | .abortRemaining => MintBot.abortRemaining db
  | .abortRunIfUnsent runId => (MintBot.abortRunIfUnsent db runId).map Prod.fst
  | .setKillSwitch engaged => .ok (MintBot.setKillSwitch db engaged)

theorem map_fst_eq_ok {α β : Type} {computation : Except Error (α × β)} {value : α} :
    computation.map Prod.fst = .ok value ↔ ∃ rest, computation = .ok (value, rest) := by
  cases computation with
  | error failure => simp [Except.map]
  | ok pair =>
      rcases pair with ⟨first, second⟩
      simp [Except.map, eq_comm]

/-- An operation is an admission, or it takes every reservation to a later
one. -/
theorem step_reservations {fleetPolicy : Option FleetSpendPolicy} {op : StoreOp} {db db' : Db}
    (success : op.step fleetPolicy db = .ok db') :
    (∃ now input result, op = .admission now input ∧
        admitExecution fleetPolicy db now input = .ok (db', result)) ∨
      db.LaterReservations db' := by
  cases op with
  | admission now input =>
      obtain ⟨result, admitted⟩ := map_fst_eq_ok.mp success
      exact Or.inl ⟨now, input, result, rfl, admitted⟩
  | attempt now input => exact Or.inr (persistEngineAttempt_later success)
  | receipt now input => exact Or.inr (persistEngineReceipt_later success)
  | transact now mutate => exact Or.inr (transaction_later success)
  | settleComponents now id components => exact Or.inr (settleExecutionComponents_later success)
  | settleTotal now id actualAmountWei => exact Or.inr (settleReservationTotal_later success)
  | transitionReservation id status => exact Or.inr (transitionReservation_later success)
  | abortRemaining => exact Or.inr (abortRemaining_later success)
  | abortRunIfUnsent runId =>
      obtain ⟨outcome, closed⟩ := map_fst_eq_ok.mp success
      exact Or.inr (abortRunIfUnsent_later closed)
  | setKillSwitch engaged =>
      obtain rfl := Except.ok.inj success
      exact Or.inr (.of_eq rfl)

end StoreOp

/-! ## A small store

One wallet may mint once in each campaign, so worked runs use one campaign, one
run and one intent for each admission, all of one name. -/

namespace Sample

/-- A free mint of one NFT that costs at most 100 wei of fees. -/
def campaign (chainId : ChainId) (name : String) : Campaign where
  id := name
  chainId := chainId
  quantity := 1
  mintPriceWei := 0
  broadcastMode := some .publicMode
  spendPolicy := { maxRunWei := 1000, dailyCapWei := 100, gasCeilingWei := 100 }
  feePolicy :=
    { kind := .free
      configuredPriorityFeeWei := 1
      l2ExecutionGasBudgetWei := none
      l1DataGasBudgetWei := none
      totalFeeBudgetWei := some 100
      freeTotalSpendCapWei := some 100 }

/-- The armed run of a campaign. -/
def run (name : String) : RunRecord where
  id := name
  intentId := name
  campaignId := name
  mode := .live
  requestDigest := .recorded name
  state := .armed

/-- The admission request of a run. -/
def input (chainId : ChainId) (name : String) (wallets : List String) :
    CanonicalAdmissionInput where
  run := run name
  intent :=
    { id := name
      runId := name
      campaignId := name
      campaignSnapshot := campaign chainId name
      wallets := wallets }
  campaign := campaign chainId name
  wallets := wallets

/-- An enabled and verified chain with one prepared run for each name. -/
def db (chainId : ChainId) (names : List String) : Db where
  killed := false
  chainProfiles :=
    [{ chainId := chainId
       executionEnabled := true
       successFinalityStage := .ethereumFinal
       verification := some { verified := true, expiresAt := some 1000000000000, checkedAt := 0 } }]
  campaigns := names.map fun name => { id := name, chainProfileId := chainId }
  feePolicies := []
  robinhoodEnablement := some { approvedAt := 0, expiresAt := 1000000000000, paidAllowed := true }
  baseEnablement := some { approvedAt := 0, expiresAt := 1000000000000, paidAllowed := true }
  admissionClockWatermark := none
  runs := names.map fun name =>
    { id := name
      requestFingerprint := .recorded name
      backendRequestDigest := none
      intentId := name
      campaignId := name
      mode := .live
      state := .prepared }
  intents := []
  executions := []
  reservations := []
  attempts := []
  receipts := []
  reconciliations := []
  ledgerEntries := []
  receiptAccounting := []
  events := []

/-- Fleet limits that one free mint uses up. -/
def fleetLimits : FleetSpendPolicy where
  freeDailyCapWei := 100
  paidDailyCapWei := 100
  paidHeadroomAlertWei := 90
  paidMaxPricePerNftWei := 100
  paidMaxWalletsPerMint := 2
  freeFeeAllowanceWei := 100
  paidFeeAllowanceWei := 100
  walletsPositive := Nat.two_pos

/-- The fleet policy of worked runs. -/
def fleetPolicy : Option FleetSpendPolicy :=
  some fleetLimits

/-- A fleet policy that leaves room for two free mints. -/
def pairPolicy : Option FleetSpendPolicy :=
  some
    { freeDailyCapWei := 200
      paidDailyCapWei := 100
      paidHeadroomAlertWei := 90
      paidMaxPricePerNftWei := 100
      paidMaxWalletsPerMint := 2
      freeFeeAllowanceWei := 100
      paidFeeAllowanceWei := 100
      walletsPositive := Nat.two_pos }

/-- The store after a list of operations. -/
def after (ops : List StoreOp) (start : Db) : Db :=
  Machine.applyAll (StoreOp.step fleetPolicy) start ops

/-- An endpoint accepted the transaction of a wallet. -/
def attempt (name wallet : String) : EngineAttempt where
  id := .broadcast ⟨name, wallet⟩ 0 .accepted
  executionId := ⟨name, wallet⟩
  transactionIntentId := ⟨name, wallet⟩
  responseClass := .broadcast .accepted
  txHash := some "0xhash"
  nonce := 0
  replacementOfId := none
  attemptedAt := 0

/-- The transaction of a wallet was included and final. -/
def receipt (name wallet : String) : EngineReceipt where
  id := .engine ⟨name, wallet⟩ "0xblock"
  executionId := ⟨name, wallet⟩
  transactionAttemptId := .broadcast ⟨name, wallet⟩ 0 .accepted
  txHash := "0xhash"
  status := .confirmed
  blockNumber := some 1
  blockHash := some "0xblock"
  gasUsed := none
  effectiveGasPrice := none
  l1DataFeeWei := none
  operatorFeeWei := none
  finalityStage := some .ethereumFinal
  robinhoodFinality := none
  observedAt := 0

/-- The store after the admission of one wallet. -/
def admitted (chainId : ChainId) (name wallet : String) : Db :=
  after [.admission 0 (input chainId name [wallet])] (db chainId [name])

/-- The identity of the execution of a wallet. -/
def identity (chainId : ChainId) (name wallet : String) : ExecutionIdentity where
  runId := name
  campaignId := name
  wallet := wallet
  transactionIntentId := ⟨name, wallet⟩
  chainId := chainId
  valueWei := 0

/-- The reservation of a wallet is admitted and settled at one instant. -/
def mint (chainId : ChainId) (now : Time) (name wallet : String) : List StoreOp :=
  [.admission now (input chainId name [wallet]), .attempt now (attempt name wallet),
    .receipt now (receipt name wallet), .settleTotal now ⟨name, wallet⟩ 100]

end Sample

end MintBot
