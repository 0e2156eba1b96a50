import MintBot.Store.Persist

/-!
# Spend policies and chain permissions

The limits that admission reads: the fleet policy of the owner, the stored fee
policy of a chain, and the owner's enablement of Robinhood and Base.  The
constants are the approved ones.
-/

namespace MintBot

open Fallible

/-- Fleet-wide limits for live admission, as `validateFleetSpendPolicy` accepts
them. -/
structure FleetSpendPolicy where
  freeDailyCapWei : Wei
  paidDailyCapWei : Wei
  paidHeadroomAlertWei : Wei
  paidMaxPricePerNftWei : Wei
  paidMaxWalletsPerMint : Nat
  freeFeeAllowanceWei : Wei
  paidFeeAllowanceWei : Wei
  amountsPositive : ∀ amount ∈ [freeDailyCapWei, paidDailyCapWei, paidHeadroomAlertWei,
    paidMaxPricePerNftWei, freeFeeAllowanceWei, paidFeeAllowanceWei], 0 < amount := by decide
  alertWithinCap : paidHeadroomAlertWei ≤ paidDailyCapWei := by decide
  walletsPositive : 1 ≤ paidMaxWalletsPerMint := by decide
  deriving DecidableEq

/-- `BASE_PERSONAL_LIVE_FLEET_POLICY`, in wei. -/
def basePersonalLiveFleetPolicy : FleetSpendPolicy where
  freeDailyCapWei := 1200000000000000
  paidDailyCapWei := 8200000000000000
  paidHeadroomAlertWei := 7500000000000000
  paidMaxPricePerNftWei := 3700000000000000
  paidMaxWalletsPerMint := 2
  freeFeeAllowanceWei := 200000000000000
  paidFeeAllowanceWei := 200000000000000

/-- `ROBINHOOD_FREE_ACTIVE_PERIOD_CAP_WEI`. -/
def robinhoodFreeActivePeriodCapWei : Wei := 2000000000000000

/-- `APPROVED_ETHEREUM_TIP_WEI`. -/
def approvedEthereumTipWei : Wei := 100000000

/-- `PHASE1_ZERO_ADMISSION_BUFFERS`. -/
def phase1ZeroAdmissionBuffers : AdmissionBuffers where
  replacementBudgetWei := 0
  mintValueBufferWei := 0
  l2ExecutionGasBufferWei := 0
  l1DataGasBufferWei := 0
  priorityFeeBufferWei := 0

def AdmissionBuffers.total (buffers : AdmissionBuffers) : Wei :=
  buffers.replacementBudgetWei + buffers.mintValueBufferWei +
    buffers.l2ExecutionGasBufferWei + buffers.l1DataGasBufferWei + buffers.priorityFeeBufferWei

/-- `fleetPolicyFor`: Base always has its own policy. -/
def fleetPolicyFor (fleetPolicy : Option FleetSpendPolicy) :
    ChainId → Option FleetSpendPolicy
  | .base => some basePersonalLiveFleetPolicy
  | .ethereum | .robinhood => fleetPolicy

/-- `exposure`: mint value, fee budget and admission buffers. -/
def exposure (campaign : Campaign) : Wei :=
  let mint := campaign.mintPriceWei * campaign.quantity
  let fee := campaign.feePolicy.totalFeeBudgetWei.getD
    (campaign.feePolicy.configuredPriorityFeeWei +
      campaign.feePolicy.l2ExecutionGasBudgetWei.getD 0 +
      campaign.feePolicy.l1DataGasBudgetWei.getD 0)
  mint + fee + phase1ZeroAdmissionBuffers.total

/-! ## Enablement -/

/-- The stored enablement judged at an instant. -/
def validEnablement (value : Option Enablement) (now : Time) : Option Enablement :=
  value.filter fun record => record.approvedAt ≤ now ∧ now < record.expiresAt

/-- The enablement allows this kind of mint now. -/
def EnablementAllows (kind : MintClass) (value : Option Enablement) (now : Time) : Prop :=
  ∃ record ∈ validEnablement value now, kind = .paid → record.paidAllowed = true

instance (kind : MintClass) (value : Option Enablement) (now : Time) :
    Decidable (EnablementAllows kind value now) := by
  unfold EnablementAllows
  infer_instance

/-- `assertRobinhoodLiveAllowed`. -/
def assertRobinhoodLiveAllowed (kind : MintClass) (value : Option Enablement) (now : Time) :
    Except Error Unit :=
  refuse (¬ EnablementAllows kind value now)
    (if kind = .paid then "ROBINHOOD_PAID_MINTS_DISABLED" else "ROBINHOOD_EXECUTION_DISABLED")

/-- `assertBaseLiveAllowed`. -/
def assertBaseLiveAllowed (kind : MintClass) (value : Option Enablement) (now : Time) :
    Except Error Unit :=
  refuse (¬ EnablementAllows kind value now)
    (if kind = .paid then "BASE_PAID_MINTS_DISABLED" else "BASE_EXECUTION_DISABLED")

/-- `assertBaseFirstRehearsal`. -/
def assertBaseFirstRehearsal (completed outstanding : Prop) [Decidable completed]
    [Decidable outstanding] (walletCount : Nat) (quantity : Int) : Except Error Unit :=
  if completed then .ok ()
  else do
    refuse outstanding "BASE_FIRST_REHEARSAL_PENDING_FINALIZATION"
    refuse (walletCount ≠ 1) "BASE_FIRST_REHEARSAL_REQUIRES_ONE_WALLET"
    refuse (quantity ≠ 1) "BASE_FIRST_REHEARSAL_REQUIRES_ONE_NFT"

/-! ## Stored fee policies and intents -/

/-- `feePolicySeed`: the largest total fee, the free cap and the priority
component.  On Ethereum a configured fleet policy decides them. -/
def feePolicySeed (fleetPolicy : Option FleetSpendPolicy) (policy : FeePolicy)
    (chainId : ChainId) : Wei × Wei × Wei :=
  match chainId, fleetPolicy with
  | .ethereum, some fleet =>
      (max fleet.freeFeeAllowanceWei fleet.paidFeeAllowanceWei, fleet.freeFeeAllowanceWei,
        approvedEthereumTipWei)
  | _, _ =>
      (policy.totalFeeBudgetWei.getD 0, policy.freeTotalSpendCapWei.getD 0,
        policy.configuredPriorityFeeWei)

/-- `ensureFeePolicy`. -/
def ensureFeePolicy (fleetPolicy : Option FleetSpendPolicy) (db : Db) (now : Time)
    (chainId : ChainId) (policy : FeePolicy) : Except Error Db := do
  onlyIf (policy.kind = .paid ∧ chainId = .robinhood)
    (assertRobinhoodLiveAllowed .paid db.robinhoodEnablement now)
  onlyIf (chainId = .base) (assertBaseLiveAllowed policy.kind db.baseEnablement now)
  match Table.lookup FeePolicyRow.chainProfileId chainId db.feePolicies with
  | some existing =>
      refuse (policy.kind = .paid ∧ existing.paidMintsEnabled = false)
        "PAID_MINT_POLICY_REQUIRED"
      return db
  | none =>
      let seed := feePolicySeed fleetPolicy policy chainId
      return { db with
        feePolicies := db.feePolicies ++
          [{ chainProfileId := chainId
             maxTotalFeeWei := seed.1
             freeMintTotalFeeCapWei := seed.2.1
             paidMintsEnabled := decide (policy.kind = .paid)
             zeroPriorityFeeAllowed := decide (seed.2.2 ≠ 0) }] }

/-- The intent row of one wallet of an intent. -/
def intentRow (intent : IntentRecord) (wallet : String) : TransactionIntentRow where
  id := ⟨intent.id, toLowerCase wallet⟩
  campaignId := intent.campaignSnapshot.id
  walletId := ⟨intent.campaignSnapshot.chainId, toLowerCase wallet⟩
  valueWei := intent.campaignSnapshot.mintPriceWei * intent.campaignSnapshot.quantity
  runId := intent.runId
  campaignSnapshot := intent.campaignSnapshot

/-- Store the intent row of one wallet unless it is stored already. -/
def persistIntentWallet (intent : IntentRecord) (db : Db) (wallet : String) :
    Except Error Db := do
  let row := intentRow intent wallet
  if db.intent row.id ≠ none then return db
  else do
    refuse (db.chainProfileForCampaign row.campaignId ≠ some row.walletId.chainProfileId)
      "campaign wallet chain identity mismatch"
    refuse (row.valueWei < 0 ∨ intent.campaignSnapshot.spendPolicy.gasCeilingWei < 0 ∨
        intent.campaignSnapshot.feePolicy.totalFeeBudgetWei.getD 0 < 0 ∨
        intent.campaignSnapshot.feePolicy.configuredPriorityFeeWei < 0)
      "transaction intent amounts must be non-negative"
    refuse (db.run row.runId = none) "FOREIGN KEY constraint failed"
    return { db with intents := db.intents ++ [row] }

/-- `persistIntent`: one immutable row for each wallet. -/
def persistIntent (fleetPolicy : Option FleetSpendPolicy) (now : Time) (db : Db)
    (intent : IntentRecord) : Except Error Db := do
  let _ ← require (db.profile intent.campaignSnapshot.chainId) "CANONICAL_CHAIN_PROFILE_REQUIRED"
  let seeded ← ensureFeePolicy fleetPolicy db now intent.campaignSnapshot.chainId
    intent.campaignSnapshot.feePolicy
  intent.wallets.foldlM (persistIntentWallet intent) seeded

/-! ## Frames -/

/-- Storing an intent only seeds a fee policy. -/
theorem ensureFeePolicy_shape {fleetPolicy : Option FleetSpendPolicy} {db db' : Db} {now : Time}
    {chainId : ChainId} {policy : FeePolicy}
    (success : ensureFeePolicy fleetPolicy db now chainId policy = .ok db') :
    ∃ feePolicies, db' = { db with feePolicies := feePolicies } := by
  unfold ensureFeePolicy at success
  simp only [bind_eq_ok] at success
  rcases success with ⟨⟨⟩, -, ⟨⟩, -, stored⟩
  split at stored
  · simp only [bind_eq_ok, pure_eq_ok] at stored
    rcases stored with ⟨⟨⟩, -, rfl⟩
    exact ⟨db.feePolicies, rfl⟩
  · exact ⟨_, (pure_eq_ok.mp stored).symm⟩

/-- A stored intent row was there before or is the row of the wallet, on the
chain of its campaign. -/
theorem persistIntentWallet_shape {intent : IntentRecord} {db db' : Db} {wallet : String}
    (success : persistIntentWallet intent db wallet = .ok db') :
    db' = db ∨ (db.intent (intentRow intent wallet).id = none ∧
      db.chainProfileForCampaign intent.campaignSnapshot.id =
        some intent.campaignSnapshot.chainId ∧
      db' = { db with intents := db.intents ++ [intentRow intent wallet] }) := by
  unfold persistIntentWallet at success
  dsimp only at success
  split at success
  · exact Or.inl (pure_eq_ok.mp success).symm
  · rename_i absent
    simp only [bind_eq_ok, refuse_eq_ok, pure_eq_ok] at success
    rcases success with ⟨⟨⟩, sameChain, ⟨⟩, -, ⟨⟩, -, rfl⟩
    exact Or.inr ⟨not_not.mp absent, not_not.mp sameChain, rfl⟩

/-- Storing an intent adds fee policies and intent rows and nothing else. -/
theorem persistIntent_shape {fleetPolicy : Option FleetSpendPolicy} {now : Time} {db db' : Db}
    {intent : IntentRecord} (success : persistIntent fleetPolicy now db intent = .ok db') :
    ∃ feePolicies intents,
      db' = { db with feePolicies := feePolicies, intents := db.intents ++ intents } := by
  simp only [persistIntent, bind_eq_ok] at success
  rcases success with ⟨-, -, seeded, seeding, stored⟩
  obtain ⟨feePolicies, rfl⟩ := ensureFeePolicy_shape seeding
  refine foldlM_invariant (I := fun state : Db => ∃ feePolicies intents,
    state = { db with feePolicies := feePolicies, intents := db.intents ++ intents }) ?_
    ⟨feePolicies, [], by simp⟩ stored
  rintro _ wallet - next ⟨feePolicies, intents, rfl⟩ stepped
  rcases persistIntentWallet_shape stepped with rfl | ⟨-, -, rfl⟩
  · exact ⟨feePolicies, intents, rfl⟩
  · exact ⟨feePolicies, intents ++ [intentRow intent wallet], by simp⟩

end MintBot
