import Mathlib.Algebra.Ring.Int.Defs
import MintBot.Store.Policy

/-!
# Canonical admission

`admitExecution` and the checks it makes.  The checks that read no reservation
come first; inside the transaction the run is checked against the kill switch,
the chain, the admission clock and stale reservations, and then each wallet is
admitted in turn against the caps, which see the rows of the wallets before it.
A wallet whose reservation is still held is admitted again without a new row:
admission of one run may be repeated.
-/

namespace MintBot

open Fallible

/-- `ROLLING_SPEND_WINDOW_MS`: 24 hours. -/
def rollingSpendWindowMs : Time := 24 * 60 * 60 * 1000

/-- `ADMISSION_CLOCK_SKEW_TOLERANCE_MS`. -/
def admissionClockSkewToleranceMs : Time := 5000

def rollingSpendCutoff (time : Time) : Time :=
  time - rollingSpendWindowMs

structure CanonicalAdmissionInput where
  run : RunRecord
  intent : IntentRecord
  campaign : Campaign
  wallets : List String
  deriving DecidableEq, Repr

structure PreparedExecution where
  wallet : String
  intentId : IntentRowId
  executionId : ExecutionId
  deriving DecidableEq, Repr

inductive FleetNotice
  | paidDailyHeadroomUsed
  deriving DecidableEq, Repr

structure CanonicalAdmissionResult where
  reservations : List Reservation
  executions : List PreparedExecution
  notices : List FleetNotice
  deriving DecidableEq, Repr

/-- The mint class of a request is read from the price of one NFT. -/
def CanonicalAdmissionInput.mintClass (input : CanonicalAdmissionInput) : MintClass :=
  if input.campaign.mintPriceWei = 0 then .free else .paid

/-! ## Reservation sums -/

namespace SpendReservationRow

/-- Pending, or settled at or after the cutoff. -/
def CountsSince (cutoff : Time) (row : SpendReservationRow) : Prop :=
  row.status = .reserved ∨
    (row.status = .settled ∧ ∀ instant ∈ row.settledAt, cutoff ≤ instant)

instance (cutoff : Time) (row : SpendReservationRow) : Decidable (row.CountsSince cutoff) := by
  unfold CountsSince
  infer_instance

/-- The mint class of a stored row is read from its mint value. -/
def OfClass (mintClass : MintClass) (row : SpendReservationRow) : Prop :=
  match mintClass with
  | .free => row.mintValueWei = 0
  | .paid => 0 < row.mintValueWei

instance (mintClass : MintClass) (row : SpendReservationRow) :
    Decidable (row.OfClass mintClass) := by
  cases mintClass <;> unfold OfClass <;> infer_instance

end SpendReservationRow

/-- The reserved amounts of the rows that satisfy a property. -/
def reservedTotal (p : SpendReservationRow → Prop) [DecidablePred p]
    (rows : List SpendReservationRow) : Wei :=
  ((rows.filter fun row => decide (p row)).map SpendReservationRow.reservedAmountWei).sum

theorem reservedTotal_cons (p : SpendReservationRow → Prop) [DecidablePred p]
    (row : SpendReservationRow) (rows : List SpendReservationRow) :
    reservedTotal p (row :: rows) =
      (if p row then row.reservedAmountWei else 0) + reservedTotal p rows := by
  unfold reservedTotal
  by_cases selected : p row
  · rw [if_pos selected, List.filter_cons_of_pos (by simpa), List.map_cons, List.sum_cons]
  · rw [if_neg selected, List.filter_cons_of_neg (by simpa), Int.zero_add]

namespace Db

/-- The daily rows of a wallet in `assertCaps`. -/
def walletDailyExposure (db : Db) (walletId : WalletId) (cutoff : Time) : Wei :=
  reservedTotal (fun row => row.walletId = walletId ∧ row.CountsSince cutoff) db.reservations

/-- `fleetDailyExposure`. -/
def fleetDailyExposure (db : Db) (chainId : ChainId) (mintClass : MintClass) (cutoff : Time) :
    Wei :=
  reservedTotal
    (fun row => row.chainProfileId = chainId ∧ row.OfClass mintClass ∧ row.CountsSince cutoff)
    db.reservations

/-- `runExposure`. -/
def runExposure (db : Db) (runId : RunId) : Wei :=
  reservedTotal
    (fun row => (row.status = .reserved ∨ row.status = .settled) ∧
      (db.execution row.executionId).map ExecutionRow.runId = some runId)
    db.reservations

/-- `runFingerprint`. -/
def runFingerprint (db : Db) (runId : RunId) : Fingerprint :=
  ((db.run runId).map runDigest).getD (.digest runId)

/-- `findWallet`: the wallet row of an address on the chain of a stored
campaign. -/
def findWallet (db : Db) (campaign : Campaign) (address : String) : Except Error WalletId := do
  let chainProfileId ← require (db.chainProfileForCampaign campaign.id)
    "CANONICAL_CHAIN_PROFILE_REQUIRED"
  return ⟨chainProfileId, toLowerCase address⟩

end Db

/-- The daily cap of a class on a chain: free mints on Robinhood are also bound
by the active period cap. -/
def classDailyCap (policy : FleetSpendPolicy) (chainId : ChainId) : MintClass → Wei
  | .paid => policy.paidDailyCapWei
  | .free =>
      if chainId = .robinhood ∧ robinhoodFreeActivePeriodCapWei < policy.freeDailyCapWei
      then robinhoodFreeActivePeriodCapWei else policy.freeDailyCapWei

theorem classDailyCap_nonneg (policy : FleetSpendPolicy) (chainId : ChainId)
    (mintClass : MintClass) : 0 ≤ classDailyCap policy chainId mintClass := by
  have free := policy.amountsPositive policy.freeDailyCapWei (by simp)
  have paid := policy.amountsPositive policy.paidDailyCapWei (by simp)
  cases mintClass with
  | paid => exact Int.le_of_lt paid
  | free =>
      dsimp only [classDailyCap]
      split
      · decide
      · exact Int.le_of_lt free

/-! ## Checks before the transaction -/

/-- `assertFleetRunLimits`. -/
def assertFleetRunLimits (fleetPolicy : Option FleetSpendPolicy)
    (input : CanonicalAdmissionInput) (mintClass : MintClass) : Except Error Unit :=
  match fleetPolicyFor fleetPolicy input.campaign.chainId with
  | none => refuse (input.run.mode = .live) "FLEET_SPEND_POLICY_REQUIRED"
  | some policy => do
      refuse (maxSafeInteger < input.campaign.quantity ∨ input.campaign.quantity < 1 ∨
          input.campaign.mintPriceWei < 0)
        "CAMPAIGN_AMOUNTS_INVALID"
      let feeAllowance :=
        exposure input.campaign - input.campaign.mintPriceWei * input.campaign.quantity
      match mintClass with
      | .paid => do
          refuse (policy.paidMaxPricePerNftWei < input.campaign.mintPriceWei)
            "PAID_PRICE_PER_NFT_EXCEEDED"
          refuse (policy.paidMaxWalletsPerMint <
              ((input.intent.wallets ++ input.wallets).map toLowerCase).dedup.length)
            "PAID_WALLET_LIMIT_EXCEEDED"
          refuse (policy.paidFeeAllowanceWei < feeAllowance) "FEE_ALLOWANCE_EXCEEDED"
      | .free => refuse (policy.freeFeeAllowanceWei < feeAllowance) "FEE_ALLOWANCE_EXCEEDED"

/-- The checks of `admitExecution` before its transaction begins. -/
def admissionPreconditions (fleetPolicy : Option FleetSpendPolicy) (db : Db) (now : Time)
    (input : CanonicalAdmissionInput) : Except Error Unit := do
  refuse (input.wallets = []) "EMPTY_RESERVATION_BATCH"
  refuse (¬ (input.wallets.map toLowerCase).Nodup) "DUPLICATE_WALLET"
  refuse (input.run.state ≠ .armed) "RUN_NOT_ARMED"
  refuse (input.intent.runId ≠ input.run.id) "INTENT_RUN_MISMATCH"
  refuse (input.intent.campaignId ≠ input.campaign.id ∨ input.run.campaignId ≠ input.campaign.id)
    "INTENT_CAMPAIGN_MISMATCH"
  refuse (∃ wallet ∈ input.wallets,
      toLowerCase wallet ∉ input.intent.wallets.map toLowerCase)
    "INTENT_WALLET_MISMATCH"
  onlyIf (input.campaign.chainId = .robinhood ∧ input.campaign.feePolicy.kind = .paid)
    (assertRobinhoodLiveAllowed .paid db.robinhoodEnablement now)
  onlyIf (input.campaign.chainId = .base)
    (assertBaseLiveAllowed input.campaign.feePolicy.kind db.baseEnablement now)
  refuse (input.run.requestDigest ≠ db.runFingerprint input.run.id) "IDEMPOTENCY_KEY_CONFLICT"
  assertFleetRunLimits fleetPolicy input input.mintClass

/-! ## Checks inside the transaction -/

/-- `assertCanonicalChainProfile`. -/
def assertCanonicalChainProfile (db : Db) (now : Time) (campaign : Campaign) :
    Except Error Unit := do
  let profile ← require (db.profile campaign.chainId) "CANONICAL_CHAIN_PROFILE_REQUIRED"
  onlyIf (campaign.chainId = .robinhood)
    (assertRobinhoodLiveAllowed .free db.robinhoodEnablement now)
  onlyIf (campaign.chainId = .base)
    (assertBaseLiveAllowed campaign.feePolicy.kind db.baseEnablement now)
  refuse (profile.executionEnabled = false) "CHAIN_EXECUTION_DISABLED"
  refuse (¬ ∃ verification ∈ profile.verification, verification.verified = true ∧
      ∃ expiresAt ∈ verification.expiresAt, now < expiresAt)
    "CHAIN_VERIFICATION_REQUIRED"

/-- `assertAndAdvanceAdmissionClock`: the clock may lag the watermark by the
tolerance, and the watermark never moves backwards. -/
def assertAndAdvanceAdmissionClock (db : Db) (now : Time) : Except Error Db := do
  refuse (∃ previous ∈ db.admissionClockWatermark, now + admissionClockSkewToleranceMs < previous)
    "ADMISSION_CLOCK_ROLLBACK"
  return { db with
    admissionClockWatermark := some (max now (db.admissionClockWatermark.getD now)) }

/-- `assertNoStalePendingReservations`. -/
def assertNoStalePendingReservations (db : Db) (now : Time) : Except Error Unit :=
  refuse (∃ row ∈ db.reservations,
      row.status = .reserved ∧ row.createdAt ≤ rollingSpendCutoff now)
    "STALE_PENDING_RESERVATION_REQUIRES_RECONCILIATION"

/-- A settled Base mint with a final confirmed receipt exists. -/
def BaseRehearsalCompleted (db : Db) : Prop :=
  ∃ receipt ∈ db.receipts, receipt.status = .confirmed ∧ receipt.finalityStage = .ethereumFinal ∧
    ∃ execution ∈ db.execution receipt.executionId,
      db.chainProfileForCampaign execution.campaignId = some .base ∧
        ∃ row ∈ db.reservations, row.executionId = receipt.executionId ∧ row.status = .settled

/-- A Base reservation is pending, or settled without a final receipt. -/
def BaseRehearsalOutstanding (db : Db) : Prop :=
  ∃ row ∈ db.reservations, row.chainProfileId = .base ∧
    (row.status = .reserved ∨
      (row.status = .settled ∧
        ¬ ∃ receipt ∈ db.receipts, receipt.executionId = row.executionId ∧
          receipt.finalityStage = .ethereumFinal ∧
            (receipt.status = .confirmed ∨ receipt.status = .reverted)))

instance (db : Db) : Decidable (BaseRehearsalCompleted db) := by
  unfold BaseRehearsalCompleted
  infer_instance

instance (db : Db) : Decidable (BaseRehearsalOutstanding db) := by
  unfold BaseRehearsalOutstanding
  infer_instance

/-- `assertPaidWalletsPerMint`: wallets that hold money on the campaign, the
new ones included. -/
def assertPaidWalletsPerMint (fleetPolicy : Option FleetSpendPolicy) (db : Db)
    (input : CanonicalAdmissionInput) : Except Error Unit :=
  match fleetPolicyFor fleetPolicy input.campaign.chainId with
  | none => .ok ()
  | some policy => do
      let existing := (db.reservations.filter fun row =>
        row.campaignId = input.campaign.id ∧
          (row.status = .reserved ∨ row.status = .settled)).map SpendReservationRow.walletId
      let added ← input.wallets.mapM (db.findWallet input.campaign)
      refuse (policy.paidMaxWalletsPerMint < (existing ++ added).dedup.length)
        "PAID_WALLET_LIMIT_EXCEEDED"

/-- `assertCanonicalFeePolicy`. -/
def assertCanonicalFeePolicy (db : Db) (now : Time) (campaign : Campaign) :
    Except Error Unit := do
  let fee := campaign.feePolicy
  let chainId ← require (db.chainProfileForCampaign campaign.id) "CANONICAL_CHAIN_PROFILE_REQUIRED"
  onlyIf (chainId = .robinhood ∧ fee.kind = .paid)
    (assertRobinhoodLiveAllowed .paid db.robinhoodEnablement now)
  onlyIf (chainId = .base) (assertBaseLiveAllowed fee.kind db.baseEnablement now)
  let totalFee := fee.totalFeeBudgetWei.getD 0
  refuse (chainId = .ethereum ∧ fee.kind = .paid ∧ campaign.broadcastMode ≠ some .publicMode)
    "PAID_ETHEREUM_PUBLIC_MODE_REQUIRED"
  refuse (totalFee < 0 ∨ campaign.spendPolicy.gasCeilingWei < totalFee) "GAS_CEILING_EXCEEDED"
  let policy ← require (Table.lookup FeePolicyRow.chainProfileId chainId db.feePolicies)
    "FEE_POLICY_REQUIRED"
  refuse (fee.kind = .paid ∧ policy.paidMintsEnabled = false) "PAID_MINT_POLICY_REQUIRED"
  refuse (fee.kind = .free ∧ policy.freeMintTotalFeeCapWei < totalFee)
    "FREE_TOTAL_SPEND_CAP_EXCEEDED"
  refuse (policy.maxTotalFeeWei < totalFee) "FEE_POLICY_CAP_EXCEEDED"
  refuse (fee.configuredPriorityFeeWei = 0 ∧ policy.zeroPriorityFeeAllowed = false)
    "ZERO_PRIORITY_FEE_POLICY_REQUIRED"

/-- `assertCaps`. -/
def assertCaps (db : Db) (walletId : WalletId) (campaign : Campaign) (rollingCutoff : Time)
    (amount priorRunExposure : Wei) : Except Error Unit := do
  refuse (campaign.spendPolicy.maxRunWei < priorRunExposure + amount) "SPEND_CAP_EXCEEDED"
  refuse (campaign.spendPolicy.dailyCapWei < db.walletDailyExposure walletId rollingCutoff + amount)
    "DAILY_SPEND_CAP_EXCEEDED"

/-- `assertFleetDailyCap`. -/
def assertFleetDailyCap (fleetPolicy : Option FleetSpendPolicy) (db : Db) (chainId : ChainId)
    (mintClass : MintClass) (rollingCutoff : Time) (amount : Wei) : Except Error Unit :=
  match fleetPolicyFor fleetPolicy chainId with
  | none => .ok ()
  | some policy =>
      refuse (classDailyCap policy chainId mintClass <
          db.fleetDailyExposure chainId mintClass rollingCutoff + amount)
        "FLEET_DAILY_CAP_EXCEEDED"

/-! ## Admitting one wallet -/

/-- The row that admission inserts for a wallet. -/
def reservationRow (input : CanonicalAdmissionInput) (walletId : WalletId) (wallet : String)
    (requestFingerprint : Fingerprint) (amount : Wei) (now : Time) : SpendReservationRow where
  id := ⟨input.run.id, toLowerCase wallet⟩
  walletId := walletId
  executionId := ⟨input.run.id, toLowerCase wallet⟩
  transactionIntentId := ⟨input.intent.id, toLowerCase wallet⟩
  requestFingerprint := requestFingerprint
  chainProfileId := walletId.chainProfileId
  campaignId := input.campaign.id
  status := .reserved
  amountWei := amount
  reservedAmountWei := amount
  settledAmountWei := none
  createdAt := now
  settledAt := none
  mintValueWei := input.campaign.mintPriceWei * input.campaign.quantity
  l2ExecutionGasWei := input.campaign.feePolicy.l2ExecutionGasBudgetWei.getD 0
  l1DataGasWei := input.campaign.feePolicy.l1DataGasBudgetWei.getD 0
  priorityFeeComponentWei := input.campaign.feePolicy.configuredPriorityFeeWei
  buffers := phase1ZeroAdmissionBuffers

/-- Insert a reservation, with the column checks, the unique indexes and the
identity triggers of its table. -/
def insertReservation (db : Db) (row : SpendReservationRow) : Except Error Db := do
  refuse (row.mintValueWei < 0 ∨ row.l2ExecutionGasWei < 0 ∨ row.l1DataGasWei < 0 ∨
      row.priorityFeeComponentWei < 0)
    "CHECK constraint failed: spend_reservation"
  refuse (¬ ∃ execution ∈ db.execution row.executionId,
      execution.walletId = row.walletId ∧ execution.campaignId = row.campaignId ∧
        execution.transactionIntentId = row.transactionIntentId)
    "reservation execution identity mismatch"
  refuse (∃ other ∈ db.reservations, other.id = row.id ∨ other.executionId = row.executionId ∨
      other.transactionIntentId = row.transactionIntentId)
    "UNIQUE constraint failed: spend_reservation"
  return { db with reservations := row :: db.reservations }

/-- Create the execution of a wallet unless the run already has it. -/
def ensureExecution (db : Db) (input : CanonicalAdmissionInput) (walletId : WalletId)
    (wallet : String) : Except Error Db :=
  if db.execution ⟨input.run.id, toLowerCase wallet⟩ ≠ none then .ok db
  else saveExecution db
    { id := ⟨input.run.id, toLowerCase wallet⟩
      campaignId := input.campaign.id
      walletId := walletId
      transactionIntentId := ⟨input.intent.id, toLowerCase wallet⟩
      state := .prepared
      runId := input.run.id
      reservationId := none }

/-- The execution row with its reservation named. -/
def ExecutionRow.link (reservationId : ReservationId) (row : ExecutionRow) : ExecutionRow :=
  { row with reservationId := some reservationId }

/-- Name the reservation in its execution, once. -/
def linkReservation (db : Db) (executionId : ExecutionId) (reservationId : ReservationId) :
    Except Error Db := do
  let row ← require (db.execution executionId) "EXECUTION_REQUIRED"
  match row.reservationId with
  | some linked =>
      refuse (linked ≠ reservationId) "EXECUTION_RESERVATION_IDENTITY_MISMATCH"
      return db
  | none =>
      return { db with
        executions := Table.update ExecutionRow.id executionId
          (ExecutionRow.link reservationId) db.executions }

/-- The database while the wallets of a batch are admitted, with the exposure
of the run so far. -/
structure AdmissionProgress where
  db : Db
  totalRunExposure : Wei

/-- The fixed facts of one admission. -/
structure AdmissionContext where
  fleetPolicy : Option FleetSpendPolicy
  input : CanonicalAdmissionInput
  requestFingerprint : Fingerprint
  amount : Wei
  now : Time

/-- Reserve money for a wallet that has no reservation of the run yet. -/
def reserveWallet (context : AdmissionContext) (walletId : WalletId) (wallet : String)
    (progress : AdmissionProgress) : Except Error AdmissionProgress := do
  let campaign := context.input.campaign
  let cutoff := rollingSpendCutoff context.now
  assertCanonicalFeePolicy progress.db context.now campaign
  assertCaps progress.db walletId campaign cutoff context.amount progress.totalRunExposure
  assertFleetDailyCap context.fleetPolicy progress.db campaign.chainId context.input.mintClass
    cutoff context.amount
  let inserted ← insertReservation progress.db
    (reservationRow context.input walletId wallet context.requestFingerprint context.amount
      context.now)
  return ⟨inserted, progress.totalRunExposure + context.amount⟩

/-- Reserve money for a wallet unless the run already has a reservation for it. -/
def reserveUnlessHeld (context : AdmissionContext) (existing : Option SpendReservationRow)
    (walletId : WalletId) (wallet : String) (progress : AdmissionProgress) :
    Except Error AdmissionProgress :=
  if existing = none then reserveWallet context walletId wallet progress else .ok progress

/-- One turn of the wallet loop.  A reservation that is still held or already
settled is a repeated admission: it is accepted without a new row and without
the caps. -/
def admitWallet (context : AdmissionContext) (progress : AdmissionProgress) (wallet : String) :
    Except Error AdmissionProgress := do
  let input := context.input
  let reservationId : ReservationId := ⟨input.run.id, toLowerCase wallet⟩
  let executionId : ExecutionId := ⟨input.run.id, toLowerCase wallet⟩
  let walletId ← progress.db.findWallet input.campaign wallet
  let existing := progress.db.reservation reservationId
  refuse (∃ row ∈ existing, row.status = .released ∨ row.status = .expired)
    "RESERVATION_IDEMPOTENCY_REPLAY"
  refuse (∃ row ∈ existing, row.requestFingerprint ≠ context.requestFingerprint)
    "IDEMPOTENCY_KEY_CONFLICT"
  let prepared ← ensureExecution progress.db input walletId wallet
  let reserved ← reserveUnlessHeld context existing walletId wallet { progress with db := prepared }
  let linked ← linkReservation reserved.db executionId reservationId
  return { reserved with db := linked }

/-! ## Admission -/

/-- Live admissions advance the admission clock and refuse to add to stale
reservations. -/
def advanceLiveClock (db : Db) (now : Time) (mode : RunMode) : Except Error Db :=
  if mode = .live then do
    let advanced ← assertAndAdvanceAdmissionClock db now
    assertNoStalePendingReservations advanced now
    return advanced
  else .ok db

/-- The checks of the transaction that come before the wallets, with the
admission clock advanced and the intent stored. -/
def beginAdmission (fleetPolicy : Option FleetSpendPolicy) (db : Db) (now : Time)
    (input : CanonicalAdmissionInput) : Except Error Db := do
  refuse (db.killed = true) "KILLED"
  assertCanonicalChainProfile db now input.campaign
  let clocked ← advanceLiveClock db now input.run.mode
  onlyIf (input.campaign.chainId = .base ∧ input.run.mode = .live)
    (assertBaseFirstRehearsal (BaseRehearsalCompleted clocked) (BaseRehearsalOutstanding clocked)
      input.wallets.length input.campaign.quantity)
  onlyIf (input.mintClass = .paid) (assertPaidWalletsPerMint fleetPolicy clocked input)
  persistIntent fleetPolicy now clocked input.intent

/-- `updateRunState` and the audit row of the admission. -/
def activateRun (db : Db) (runId : RunId) : Except Error Db :=
  persistEvent
    { db with
      runs := Table.update ExecutionRunRow.id runId
        (fun row => { row with state := .active }) db.runs }
    { runId := some runId, type := .admission }

/-- What admission returns for the wallets of the batch. -/
def admissionResult (fleetPolicy : Option FleetSpendPolicy) (db : Db) (now : Time)
    (input : CanonicalAdmissionInput) : CanonicalAdmissionResult where
  reservations := input.wallets.filterMap fun wallet =>
    (db.reservation ⟨input.run.id, toLowerCase wallet⟩).map db.mapReservation
  executions := input.wallets.map fun wallet =>
    { wallet := wallet
      intentId := ⟨input.intent.id, toLowerCase wallet⟩
      executionId := ⟨input.run.id, toLowerCase wallet⟩ }
  notices :=
    match fleetPolicyFor fleetPolicy input.campaign.chainId with
    | none => []
    | some policy =>
        if input.mintClass = .paid ∧
            policy.paidHeadroomAlertWei <
              db.fleetDailyExposure input.campaign.chainId .paid (rollingSpendCutoff now)
        then [.paidDailyHeadroomUsed] else []

/-- The facts of the admission that starts in `db`. -/
def admissionContext (fleetPolicy : Option FleetSpendPolicy) (db : Db) (now : Time)
    (input : CanonicalAdmissionInput) : AdmissionContext where
  fleetPolicy := fleetPolicy
  input := input
  requestFingerprint := db.runFingerprint input.run.id
  amount := exposure input.campaign
  now := now

/-- `admitExecution`. -/
def admitExecution (fleetPolicy : Option FleetSpendPolicy) (db : Db) (now : Time)
    (input : CanonicalAdmissionInput) : Except Error (Db × CanonicalAdmissionResult) := do
  admissionPreconditions fleetPolicy db now input
  let begun ← beginAdmission fleetPolicy db now input
  refuse (exposure input.campaign ≤ 0) "RESERVATION_EXPOSURE_MUST_BE_POSITIVE"
  let admitted ← input.wallets.foldlM (admitWallet (admissionContext fleetPolicy db now input))
    ⟨begun, begun.runExposure input.run.id⟩
  let activated ← activateRun admitted.db input.run.id
  return (activated, admissionResult fleetPolicy activated now input)

/-! ## What a successful admission did -/

/-- Under a fleet policy every request is for at least one NFT at a price that
is not negative. -/
theorem admissionPreconditions_amounts {fleetPolicy : Option FleetSpendPolicy} {db : Db}
    {now : Time} {input : CanonicalAdmissionInput} {policy : FleetSpendPolicy}
    (inForce : policy ∈ fleetPolicyFor fleetPolicy input.campaign.chainId)
    (checked : admissionPreconditions fleetPolicy db now input = .ok ()) :
    1 ≤ input.campaign.quantity ∧ 0 ≤ input.campaign.mintPriceWei := by
  simp only [admissionPreconditions, bind_eq_ok] at checked
  rcases checked with ⟨⟨⟩, -, ⟨⟩, -, ⟨⟩, -, ⟨⟩, -, ⟨⟩, -, ⟨⟩, -, ⟨⟩, -, ⟨⟩, -, ⟨⟩, -, limits⟩
  rw [assertFleetRunLimits, Option.mem_def.mp inForce] at limits
  simp only [bind_eq_ok, refuse_eq_ok, not_or, Int.not_lt] at limits
  exact limits.choose_spec.1.2

theorem findWallet_eq_ok {db : Db} {campaign : Campaign} {address : String}
    {walletId : WalletId} :
    db.findWallet campaign address = .ok walletId ↔
      ∃ chainId, db.chainProfileForCampaign campaign.id = some chainId ∧
        ⟨chainId, toLowerCase address⟩ = walletId := by
  simp only [Db.findWallet, bind_eq_ok, require_eq_ok, pure_eq_ok]

/-- Only the stored campaigns decide the wallet of an address. -/
theorem findWallet_congr {db db' : Db} (sameCampaigns : db'.campaigns = db.campaigns)
    (campaign : Campaign) (address : String) :
    db'.findWallet campaign address = db.findWallet campaign address := by
  unfold Db.findWallet Db.chainProfileForCampaign
  rw [sameCampaigns]

theorem assertCaps_eq_ok {db : Db} {walletId : WalletId} {campaign : Campaign}
    {rollingCutoff : Time} {amount priorRunExposure : Wei} {result : Unit} :
    assertCaps db walletId campaign rollingCutoff amount priorRunExposure = .ok result ↔
      priorRunExposure + amount ≤ campaign.spendPolicy.maxRunWei ∧
        db.walletDailyExposure walletId rollingCutoff + amount ≤
          campaign.spendPolicy.dailyCapWei := by
  simp only [assertCaps, bind_eq_ok, refuse_eq_ok, Int.not_lt]
  constructor
  · rintro ⟨⟨⟩, withinRun, withinDay⟩
    exact ⟨withinRun, withinDay⟩
  · rintro ⟨withinRun, withinDay⟩
    exact ⟨⟨⟩, withinRun, withinDay⟩

theorem assertFleetDailyCap_eq_ok {fleetPolicy : Option FleetSpendPolicy} {db : Db}
    {chainId : ChainId} {mintClass : MintClass} {rollingCutoff : Time} {amount : Wei}
    {result : Unit} :
    assertFleetDailyCap fleetPolicy db chainId mintClass rollingCutoff amount = .ok result ↔
      ∀ policy ∈ fleetPolicyFor fleetPolicy chainId,
        db.fleetDailyExposure chainId mintClass rollingCutoff + amount ≤
          classDailyCap policy chainId mintClass := by
  unfold assertFleetDailyCap
  cases fleetPolicyFor fleetPolicy chainId with
  | none => simp
  | some policy => simp [refuse_eq_ok]

/-- What the checks of `insertReservation` ask of a row. -/
structure Db.ReservationAccepted (db : Db) (row : SpendReservationRow) : Prop where
  amounts : 0 ≤ row.mintValueWei ∧ 0 ≤ row.l2ExecutionGasWei ∧ 0 ≤ row.l1DataGasWei ∧
    0 ≤ row.priorityFeeComponentWei
  execution : ∃ execution ∈ db.execution row.executionId,
    execution.walletId = row.walletId ∧ execution.campaignId = row.campaignId ∧
      execution.transactionIntentId = row.transactionIntentId
  fresh : ∀ other ∈ db.reservations, other.id ≠ row.id ∧ other.executionId ≠ row.executionId ∧
    other.transactionIntentId ≠ row.transactionIntentId

theorem insertReservation_eq_ok {db db' : Db} {row : SpendReservationRow} :
    insertReservation db row = .ok db' ↔
      db.ReservationAccepted row ∧ { db with reservations := row :: db.reservations } = db' := by
  simp only [insertReservation, bind_eq_ok, refuse_eq_ok, pure_eq_ok, not_or, not_not,
    Int.not_lt]
  constructor
  · rintro ⟨⟨⟩, amounts, ⟨⟩, execution, ⟨⟩, fresh, result⟩
    refine ⟨⟨amounts, execution, fun other member => ?_⟩, result⟩
    have differ := mt (fun same => ⟨other, member, same⟩) fresh
    tauto
  · rintro ⟨⟨amounts, execution, fresh⟩, result⟩
    refine ⟨⟨⟩, amounts, ⟨⟩, execution, ⟨⟩, ?_, result⟩
    rintro ⟨other, member, same⟩
    have differ := fresh other member
    tauto

/-- A new execution is stored as `prepared` under a fresh id. -/
theorem ensureExecution_shape {db db' : Db} {input : CanonicalAdmissionInput}
    {walletId : WalletId} {wallet : String}
    (success : ensureExecution db input walletId wallet = .ok db') :
    db' = db ∨ ∃ row : ExecutionRow, row.state = .prepared ∧
      row.id = ⟨input.run.id, toLowerCase wallet⟩ ∧ row.runId = input.run.id ∧
      db.execution row.id = none ∧ db' = { db with executions := db.executions ++ [row] } := by
  unfold ensureExecution at success
  split at success
  · exact Or.inl (Except.ok.inj success).symm
  · rename_i absent
    rcases saveExecution_eq_ok.mp success with ⟨-, -, -, rfl⟩
    exact Or.inr ⟨_, rfl, rfl, rfl, not_not.mp absent, rfl⟩

theorem linkReservation_shape {db db' : Db} {executionId : ExecutionId}
    {reservationId : ReservationId}
    (success : linkReservation db executionId reservationId = .ok db') :
    db' = db ∨ db' = { db with
      executions := Table.update ExecutionRow.id executionId
        (ExecutionRow.link reservationId) db.executions } := by
  simp only [linkReservation, bind_eq_ok] at success
  rcases success with ⟨row, -, linked⟩
  split at linked
  · simp only [bind_eq_ok, pure_eq_ok] at linked
    rcases linked with ⟨⟨⟩, -, rfl⟩
    exact Or.inl rfl
  · exact Or.inr (pure_eq_ok.mp linked).symm

/-- The checks a new reservation row passed against the rows before it. -/
structure AdmissionContext.Admits (context : AdmissionContext)
    (rows : List SpendReservationRow) (row : SpendReservationRow) : Prop where
  made : ∃ walletId wallet, row = reservationRow context.input walletId wallet
    context.requestFingerprint context.amount context.now
  mintValue : 0 ≤ row.mintValueWei
  fresh : ∀ other ∈ rows, other.id ≠ row.id ∧ other.executionId ≠ row.executionId
  walletCap : reservedTotal
      (fun other => other.walletId = row.walletId ∧
        other.CountsSince (rollingSpendCutoff context.now)) rows + context.amount ≤
    context.input.campaign.spendPolicy.dailyCapWei
  fleetCap : ∀ policy ∈ fleetPolicyFor context.fleetPolicy context.input.campaign.chainId,
    reservedTotal
        (fun other => other.chainProfileId = context.input.campaign.chainId ∧
          other.OfClass context.input.mintClass ∧
          other.CountsSince (rollingSpendCutoff context.now)) rows + context.amount ≤
      classDailyCap policy context.input.campaign.chainId context.input.mintClass

theorem reserveWallet_admits {context : AdmissionContext} {walletId : WalletId}
    {wallet : String} {progress next : AdmissionProgress}
    (success : reserveWallet context walletId wallet progress = .ok next) :
    ∃ row, row.walletId = walletId ∧ context.Admits progress.db.reservations row ∧
      next = ⟨{ progress.db with reservations := row :: progress.db.reservations },
        progress.totalRunExposure + context.amount⟩ := by
  simp only [reserveWallet, bind_eq_ok, pure_eq_ok, assertCaps_eq_ok, assertFleetDailyCap_eq_ok,
    insertReservation_eq_ok] at success
  rcases success with ⟨⟨⟩, -, ⟨⟩, ⟨-, withinDay⟩, ⟨⟩, withinFleet, _, ⟨accepted, rfl⟩, rfl⟩
  refine ⟨_, rfl, ?_, rfl⟩
  constructor
  · exact ⟨walletId, wallet, rfl⟩
  · exact accepted.amounts.1
  · exact fun other member => ⟨(accepted.fresh other member).1, (accepted.fresh other member).2.1⟩
  · exact withinDay
  · exact withinFleet

/-- One turn of the wallet loop keeps the reservations or puts one admitted row
in front of them. -/
theorem admitWallet_reservations {context : AdmissionContext} {wallet : String}
    {progress next : AdmissionProgress}
    (success : admitWallet context progress wallet = .ok next) :
    next.db.reservations = progress.db.reservations ∨
      ∃ row, progress.db.findWallet context.input.campaign wallet = .ok row.walletId ∧
        context.Admits progress.db.reservations row ∧
        next.db.reservations = row :: progress.db.reservations := by
  simp only [admitWallet, bind_eq_ok, pure_eq_ok] at success
  rcases success with ⟨walletId, found, ⟨⟩, -, ⟨⟩, -, prepared, ensured, reserved, reserving,
    linked, linking, rfl⟩
  have sameAsProgress : prepared.reservations = progress.db.reservations := by
    rcases ensureExecution_shape ensured with rfl | ⟨row, -, -, -, -, rfl⟩ <;> rfl
  have sameAsReserved : linked.reservations = reserved.db.reservations := by
    rcases linkReservation_shape linking with rfl | rfl <;> rfl
  unfold reserveUnlessHeld at reserving
  split at reserving
  · obtain ⟨row, named, admits, rfl⟩ := reserveWallet_admits reserving
    dsimp only at admits sameAsReserved
    rw [sameAsProgress] at admits sameAsReserved
    exact Or.inr ⟨row, named ▸ found, admits, sameAsReserved⟩
  · obtain rfl := Except.ok.inj reserving
    exact Or.inl (sameAsReserved.trans sameAsProgress)

/-- The wallet loop writes executions and reservations only. -/
theorem admitWallet_shape {context : AdmissionContext} {wallet : String}
    {progress next : AdmissionProgress}
    (success : admitWallet context progress wallet = .ok next) :
    ∃ executions reservations, next.db =
      { progress.db with executions := executions, reservations := reservations } := by
  simp only [admitWallet, bind_eq_ok, pure_eq_ok] at success
  rcases success with ⟨walletId, -, ⟨⟩, -, ⟨⟩, -, prepared, ensured, reserved, reserving,
    linked, linking, rfl⟩
  have ensuredShape : ∃ executions, prepared = { progress.db with executions := executions } := by
    rcases ensureExecution_shape ensured with rfl | ⟨row, -, -, -, -, rfl⟩
    · exact ⟨progress.db.executions, rfl⟩
    · exact ⟨_, rfl⟩
  obtain ⟨executions, rfl⟩ := ensuredShape
  have reservedShape : ∃ reservations, reserved.db =
      { progress.db with executions := executions, reservations := reservations } := by
    unfold reserveUnlessHeld at reserving
    split at reserving
    · obtain ⟨row, -, -, rfl⟩ := reserveWallet_admits reserving
      exact ⟨_, rfl⟩
    · obtain rfl := Except.ok.inj reserving
      exact ⟨progress.db.reservations, rfl⟩
  obtain ⟨reservations, reservedDb⟩ := reservedShape
  rw [reservedDb] at linking
  rcases linkReservation_shape linking with rfl | rfl
  · exact ⟨executions, reservations, rfl⟩
  · exact ⟨_, reservations, rfl⟩

theorem advanceLiveClock_shape {db db' : Db} {now : Time} {mode : RunMode}
    (success : advanceLiveClock db now mode = .ok db') :
    ∃ watermark, db' = { db with admissionClockWatermark := watermark } := by
  unfold advanceLiveClock at success
  split at success
  · simp only [assertAndAdvanceAdmissionClock, bind_eq_ok, pure_eq_ok] at success
    rcases success with ⟨_, ⟨⟨⟩, -, rfl⟩, ⟨⟩, -, rfl⟩
    exact ⟨_, rfl⟩
  · obtain rfl := Except.ok.inj success
    exact ⟨db.admissionClockWatermark, rfl⟩

/-- Before the wallets, admission writes the clock, a fee policy and intents. -/
theorem beginAdmission_shape {fleetPolicy : Option FleetSpendPolicy} {db db' : Db} {now : Time}
    {input : CanonicalAdmissionInput}
    (success : beginAdmission fleetPolicy db now input = .ok db') :
    ∃ watermark feePolicies intents, db' =
      { db with
        admissionClockWatermark := watermark
        feePolicies := feePolicies
        intents := db.intents ++ intents } := by
  simp only [beginAdmission, bind_eq_ok] at success
  rcases success with ⟨⟨⟩, -, ⟨⟩, -, clocked, advanced, ⟨⟩, -, ⟨⟩, -, stored⟩
  obtain ⟨watermark, rfl⟩ := advanceLiveClock_shape advanced
  obtain ⟨feePolicies, intents, rfl⟩ := persistIntent_shape stored
  exact ⟨watermark, feePolicies, intents, rfl⟩

/-- The parts of a successful admission. -/
theorem admitExecution_eq_ok {fleetPolicy : Option FleetSpendPolicy} {db db' : Db} {now : Time}
    {input : CanonicalAdmissionInput} {result : CanonicalAdmissionResult} :
    admitExecution fleetPolicy db now input = .ok (db', result) ↔
      ∃ begun admitted,
        admissionPreconditions fleetPolicy db now input = .ok () ∧
        beginAdmission fleetPolicy db now input = .ok begun ∧
        0 < exposure input.campaign ∧
        input.wallets.foldlM (admitWallet (admissionContext fleetPolicy db now input))
          ⟨begun, begun.runExposure input.run.id⟩ = .ok admitted ∧
        activateRun admitted.db input.run.id = .ok db' ∧
        admissionResult fleetPolicy db' now input = result := by
  simp only [admitExecution, bind_eq_ok, pure_eq_ok, refuse_eq_ok, Int.not_le, Prod.mk.injEq]
  constructor
  · rintro ⟨⟨⟩, checked, begun, started, ⟨⟩, positive, admitted, looped, _, activated, rfl, made⟩
    exact ⟨begun, admitted, checked, started, positive, looped, activated, made⟩
  · rintro ⟨begun, admitted, checked, started, positive, looped, activated, made⟩
    exact ⟨⟨⟩, checked, begun, started, ⟨⟩, positive, admitted, looped, db', activated, rfl, made⟩

theorem activateRun_eq_ok {db db' : Db} {runId : RunId} :
    activateRun db runId = .ok db' ↔
      db.run runId ≠ none ∧
        { db with
          runs := Table.update ExecutionRunRow.id runId
            (fun row => { row with state := .active }) db.runs
          events := db.events ++ [{ runId := some runId, type := .admission }] } = db' := by
  have kept : Table.lookup ExecutionRunRow.id runId (Table.update ExecutionRunRow.id runId
      (fun row => { row with state := .active }) db.runs) =
        (db.run runId).map fun row => { row with state := .active } :=
    Table.lookup_update_self ExecutionRunRow.id runId (fun row => { row with state := .active })
      (fun _ => rfl) db.runs
  simp only [activateRun, persistEvent_eq_ok, Option.mem_some, forall_eq', Db.run]
  rw [kept]
  simp [Db.run]

/-- What holds of the reservations and survives every admitted row holds after
an admission. -/
theorem admitExecution_reservations {I : List SpendReservationRow → Prop}
    {fleetPolicy : Option FleetSpendPolicy} {db db' : Db} {now : Time}
    {input : CanonicalAdmissionInput} {result : CanonicalAdmissionResult}
    (start : I db.reservations)
    (inserted : ∀ rows row, I rows → admissionPreconditions fleetPolicy db now input = .ok () →
      0 < exposure input.campaign →
      (∃ wallet ∈ input.wallets, db.findWallet input.campaign wallet = .ok row.walletId) →
      (admissionContext fleetPolicy db now input).Admits rows row → I (row :: rows))
    (success : admitExecution fleetPolicy db now input = .ok (db', result)) :
    I db'.reservations := by
  rcases admitExecution_eq_ok.mp success with
    ⟨begun, admitted, checked, started, positive, looped, activated, -⟩
  obtain ⟨watermark, feePolicies, intents, rfl⟩ := beginAdmission_shape started
  obtain ⟨-, rfl⟩ := activateRun_eq_ok.mp activated
  have preserved : admitted.db.campaigns = db.campaigns ∧ I admitted.db.reservations := by
    refine foldlM_invariant
      (I := fun progress => progress.db.campaigns = db.campaigns ∧ I progress.db.reservations)
      ?_ ⟨rfl, start⟩ looped
    rintro progress wallet member next ⟨sameCampaigns, holds⟩ stepped
    have sameNext : next.db.campaigns = progress.db.campaigns := by
      obtain ⟨executions, reservations, shape⟩ := admitWallet_shape stepped
      rw [shape]
    refine ⟨sameNext.trans sameCampaigns, ?_⟩
    rcases admitWallet_reservations stepped with same | ⟨row, found, admits, added⟩
    · rw [same]
      exact holds
    · rw [added]
      have foundBefore : db.findWallet input.campaign wallet = .ok row.walletId :=
        (findWallet_congr sameCampaigns.symm input.campaign wallet).trans found
      exact inserted _ row holds checked positive ⟨wallet, member, foundBefore⟩ admits
  exact preserved.2

/-- Executions kept with their states, with new ones under fresh ids. -/
structure Db.ExtendsExecutions (db db' : Db) : Prop where
  kept : ∀ id row, db.execution id = some row →
    ∃ row', db'.execution id = some row' ∧ row'.state = row.state
  distinct : (db.executions.map ExecutionRow.id).Nodup → (db'.executions.map ExecutionRow.id).Nodup

theorem Db.ExtendsExecutions.of_eq {db db' : Db} (same : db'.executions = db.executions) :
    db.ExtendsExecutions db' where
  kept id row found := ⟨row, by rw [Db.execution, same]; exact found, rfl⟩
  distinct nodup := by rwa [same]

theorem Db.ExtendsExecutions.trans {first second third : Db}
    (earlier : first.ExtendsExecutions second) (later : second.ExtendsExecutions third) :
    first.ExtendsExecutions third where
  kept id row found := by
    obtain ⟨middle, middleFound, middleState⟩ := earlier.kept id row found
    obtain ⟨last, lastFound, lastState⟩ := later.kept id middle middleFound
    exact ⟨last, lastFound, lastState.trans middleState⟩
  distinct nodup := later.distinct (earlier.distinct nodup)

theorem Db.ExtendsExecutions.aborted {db db' : Db} (extends' : db.ExtendsExecutions db')
    {id : ExecutionId} (aborted : db.Aborted id) : db'.Aborted id := by
  obtain ⟨row, found, state⟩ := aborted
  obtain ⟨row', found', state'⟩ := extends'.kept id row found
  exact ⟨row', found', state'.trans state⟩

theorem ensureExecution_extends {db db' : Db} {input : CanonicalAdmissionInput}
    {walletId : WalletId} {wallet : String}
    (success : ensureExecution db input walletId wallet = .ok db') :
    db.ExtendsExecutions db' := by
  rcases ensureExecution_shape success with rfl | ⟨row, -, -, -, absent, rfl⟩
  · exact .of_eq rfl
  · constructor
    · intro id old found
      exact ⟨old, Table.lookup_append_of_some found [row], rfl⟩
    · intro nodup
      rw [List.map_append, List.map_singleton]
      refine List.nodup_append.mpr ⟨nodup, List.nodup_singleton _, ?_⟩
      intro id member other single same
      obtain ⟨old, oldMember, rfl⟩ := List.mem_map.mp member
      rw [List.mem_singleton.mp single] at same
      exact Table.lookup_eq_none.mp absent old oldMember same

theorem linkReservation_extends {db db' : Db} {executionId : ExecutionId}
    {reservationId : ReservationId}
    (success : linkReservation db executionId reservationId = .ok db') :
    db.ExtendsExecutions db' := by
  rcases linkReservation_shape success with rfl | rfl
  · exact .of_eq rfl
  · constructor
    · intro id row found
      by_cases same : id = executionId
      · subst same
        have linked := Table.lookup_update_self ExecutionRow.id id
          (ExecutionRow.link reservationId) (fun _ => rfl) db.executions
        refine ⟨row.link reservationId, ?_, rfl⟩
        unfold Db.execution at found ⊢
        rw [linked, found, Option.map_some]
      · have unlinked := Table.lookup_update_other ExecutionRow.id same
          (ExecutionRow.link reservationId) (fun _ => rfl) db.executions
        exact ⟨row, unlinked.trans found, rfl⟩
    · intro nodup
      rwa [Table.map_key_update ExecutionRow.id executionId (ExecutionRow.link reservationId)
        fun _ _ => rfl]

theorem admitWallet_extends {context : AdmissionContext} {wallet : String}
    {progress next : AdmissionProgress}
    (success : admitWallet context progress wallet = .ok next) :
    progress.db.ExtendsExecutions next.db := by
  simp only [admitWallet, bind_eq_ok, pure_eq_ok] at success
  rcases success with ⟨walletId, -, ⟨⟩, -, ⟨⟩, -, prepared, ensured, reserved, reserving,
    linked, linking, rfl⟩
  have sameExecutions : reserved.db.executions = prepared.executions := by
    unfold reserveUnlessHeld at reserving
    split at reserving
    · obtain ⟨row, -, -, rfl⟩ := reserveWallet_admits reserving
      rfl
    · obtain rfl := Except.ok.inj reserving
      rfl
  have afterLink := linkReservation_extends linking
  exact ((ensureExecution_extends ensured).trans (.of_eq sameExecutions)).trans afterLink

/-- An admission keeps every execution in its state and records no attempt. -/
theorem admitExecution_extends {fleetPolicy : Option FleetSpendPolicy} {db db' : Db}
    {now : Time} {input : CanonicalAdmissionInput} {result : CanonicalAdmissionResult}
    (success : admitExecution fleetPolicy db now input = .ok (db', result)) :
    db.ExtendsExecutions db' ∧ db'.attempts = db.attempts := by
  rcases admitExecution_eq_ok.mp success with
    ⟨begun, admitted, -, started, -, looped, activated, -⟩
  obtain ⟨watermark, feePolicies, intents, rfl⟩ := beginAdmission_shape started
  obtain ⟨-, rfl⟩ := activateRun_eq_ok.mp activated
  have looped : db.ExtendsExecutions admitted.db ∧ admitted.db.attempts = db.attempts := by
    refine foldlM_invariant
      (I := fun progress : AdmissionProgress => db.ExtendsExecutions progress.db ∧
        progress.db.attempts = db.attempts) ?_ ⟨.of_eq rfl, rfl⟩ looped
    rintro progress wallet - next ⟨kept, sameAttempts⟩ stepped
    obtain ⟨executions, reservations, shape⟩ := admitWallet_shape stepped
    refine ⟨kept.trans (admitWallet_extends stepped), ?_⟩
    rw [shape]
    exact sameAttempts
  exact ⟨looped.1.trans (.of_eq rfl), looped.2⟩

end MintBot
