import Mathlib.Logic.Function.Iterate
import MintBot.Engine.ReplacementPolicy
import MintBot.Library.Fallible

/-!
# Checks around signing

The pre-sign gate of the adapter, which reads the store anew at every call, and the steps of
the engine that may sign: the first transaction of a wallet and the replacements of its
ladder.  A step is modelled with the calls it makes, in order, so that what stands in front of
a signature can be stated.
-/

namespace MintBot

open Fallible

/-! ## Amounts -/

/-- `ceilingWithinPolicy`. -/
def CeilingWithinPolicy (ceiling policy : Fees) : Prop :=
  ValidFees ceiling ∧ ValidFees policy ∧ Within ceiling policy

instance (ceiling policy : Fees) : Decidable (CeilingWithinPolicy ceiling policy) :=
  inferInstanceAs (Decidable (_ ∧ _ ∧ _))

/-- `requiredCeiling`: the fees after `maxBumps` steps. -/
def requiredCeiling (initial : Fees) (maxBumps : Int) : Except Error Fees :=
  if ¬ isSafeInteger maxBumps ∨ maxBumps < 0 ∨ maxBumps > maxReplacementBumpsLimit then
    .error "REPLACEMENT_CONFIG_INVALID"
  else if ¬ ValidFees initial then .error "REPLACEMENT_FEES_INVALID"
  else .ok (Nat.iterate nextStep maxBumps.toNat initial)

/-- The replacement settings of a live fleet; the ceiling was checked when they were made. -/
structure ReplacementPlan where
  ceiling : Fees
  maxBumps : Int
  stuckAfterMs : Time
  ceilingValid : ValidFees ceiling

/-- What `replacementPlan` reads: the configured ceiling and age with the limits of the signed
policy and of the owner. -/
structure ReplacementConfig where
  ceiling : Fees
  stuckAfterMs : Time
  policyLimits : Option Fees
  ownerCap : Option Fees

/-- `replacementPlan` of a live run. -/
def replacementPlan (chainId : ChainId) (flashbots : Bool) (configured : Option ReplacementConfig)
    (maxBumps : Int) (first : Fees) : Except Error (Option ReplacementPlan) :=
  match configured with
  | none => .ok none
  | some configured =>
    if maxBumps ≤ 0 ∨ chainId = .ethereum ∨ flashbots then .ok none
    else
      match requiredCeiling first maxBumps with
      | .error _ => .error "Replacement settings are invalid"
      | .ok needed =>
        if needed.maxFeePerGas > configured.ceiling.maxFeePerGas ∨
            needed.maxPriorityFeePerGas > configured.ceiling.maxPriorityFeePerGas ∨
            configured.ceiling.maxPriorityFeePerGas > configured.ceiling.maxFeePerGas then
          .error "Replacement ceiling is too low for the configured number of replacements"
        else
          match configured.policyLimits, configured.ownerCap with
          | some policy, some owner =>
            if within : CeilingWithinPolicy configured.ceiling policy then
              if CeilingWithinPolicy configured.ceiling owner then
                .ok (some
                  { ceiling := configured.ceiling
                    maxBumps := maxBumps
                    stuckAfterMs := max configured.stuckAfterMs 6000
                    ceilingValid := within.1 })
              else
                .error "Replacement ceiling is above the owner fee cap for this campaign"
            else .error "Replacement ceiling is not inside the signed provider policy limits"
          | none, _ => .error "Replacement ceiling is not inside the signed provider policy limits"
          | some policy, none =>
            if CeilingWithinPolicy configured.ceiling policy then
              .error "Replacement ceiling is above the owner fee cap for this campaign"
            else .error "Replacement ceiling is not inside the signed provider policy limits"

/-- `robinhoodL1DataGasWei`. -/
def robinhoodL1DataGasWei (gasLimit maxFeePerGasWei : Wei) : Except Error Wei :=
  if gasLimit < 0 ∨ maxFeePerGasWei < 0 then .error "L1_DATA_GAS_INPUT_INVALID"
  else .ok ((gasLimit + 15).tdiv 16 * maxFeePerGasWei)

/-- A transaction as it is handed to a signer. -/
structure TransactionIntent where
  chainId : ChainId
  fromAddress : String
  toAddress : String
  value : Wei
  data : String
  nonce : Nat
  gasLimit : Int
  maxFeePerGas : Wei
  maxPriorityFeePerGas : Wei
  deriving DecidableEq, Repr

/-- The reserve request of a wallet. -/
structure ReserveRequest where
  address : String
  walletIndex : Nat
  runId : RunId
  campaignId : CampaignId
  executionId : ExecutionId
  transactionIntentId : IntentRowId
  valueWei : Wei
  maxGasCostWei : Wei
  mintValueWei : Wei
  l2ExecutionGasWei : Wei
  l1DataGasWei : Wei
  deriving DecidableEq, Repr

/-- What the engine knows of a wallet's mint before it reserves: the drop price as it was read,
the gas limit, the first fees, the replacement plan and the quoted L1 bound on Base. -/
structure MintQuote where
  chainId : ChainId
  address : String
  walletIndex : Nat
  runId : RunId
  intentId : IntentId
  campaignId : CampaignId
  toAddress : String
  data : String
  nonce : Nat
  mintPriceWei : Wei
  quantity : Int
  gasLimit : Int
  fees : Fees
  replacement : Option ReplacementPlan
  baseFeeBound : Option Wei

namespace MintQuote

variable (quote : MintQuote)

def value : Wei :=
  quote.mintPriceWei * quote.quantity

/-- With replacements the worst case is reserved at the ceiling. -/
def reserveFee : Wei :=
  match quote.replacement with
  | some plan => plan.ceiling.maxFeePerGas
  | none => quote.fees.maxFeePerGas

/-- `nonL2ExecutionReserveWei`. -/
def l1DataGasWei : Except Error Wei :=
  match quote.baseFeeBound, quote.chainId with
  | some bound, _ => .ok bound
  | none, .robinhood => robinhoodL1DataGasWei quote.gasLimit quote.reserveFee
  | none, _ => .ok 0

def intent : TransactionIntent where
  chainId := quote.chainId
  fromAddress := quote.address
  toAddress := quote.toAddress
  value := quote.value
  data := quote.data
  nonce := quote.nonce
  gasLimit := quote.gasLimit
  maxFeePerGas := quote.fees.maxFeePerGas
  maxPriorityFeePerGas := quote.fees.maxPriorityFeePerGas

/-- `reserveRequest`, with the identity of the wallet's execution. -/
def request (l1DataGasWei : Wei) : ReserveRequest where
  address := quote.address
  walletIndex := quote.walletIndex
  runId := quote.runId
  campaignId := quote.campaignId
  executionId := ⟨quote.runId, toLowerCase quote.address⟩
  transactionIntentId := ⟨quote.intentId, toLowerCase quote.address⟩
  valueWei := quote.value
  maxGasCostWei := quote.gasLimit * quote.reserveFee
  mintValueWei := quote.value
  l2ExecutionGasWei := quote.gasLimit * quote.reserveFee
  l1DataGasWei := l1DataGasWei

end MintQuote

/-- `assertRequestMatchesIntent`. -/
def assertRequestMatchesIntent (intent : TransactionIntent) (request : ReserveRequest)
    (reservedMaxFeePerGas : Option Wei) : Except Error Unit := do
  refuse (reservedMaxFeePerGas.any (· < intent.maxFeePerGas) = true)
    "Replacement ceiling is below the first fee"
  let worstCaseGas := intent.gasLimit * reservedMaxFeePerGas.getD intent.maxFeePerGas
  refuse (request.valueWei ≠ intent.value ∨ request.mintValueWei ≠ intent.value ∨
      request.maxGasCostWei ≠ worstCaseGas ∨ request.l2ExecutionGasWei ≠ worstCaseGas)
    "Reservation amounts differ from the transaction about to be signed"

/-! ## The gate -/

/-- What the gate reads at one moment: the store, and the owner's enablement of the chain,
`none` when it is not current and otherwise whether paid mints are allowed. -/
structure GateView where
  killed : Bool
  reservations : List Reservation
  liveGrant : Option Bool

/-- What was admitted for the run. -/
structure AdmittedRun where
  runId : RunId
  intentId : IntentId
  campaign : Campaign
  reservationIds : List ReservationId

/-- `assertWithinAdmittedExposure`. -/
def assertWithinAdmittedExposure (request : ReserveRequest) (campaign : Campaign)
    (reservation : Reservation) : Except Error Unit := do
  refuse (request.valueWei ≠ campaign.mintPriceWei * campaign.quantity)
    "MINT_VALUE_CHANGED_SINCE_ADMISSION"
  refuse (request.maxGasCostWei < 0 ∨ request.l1DataGasWei < 0) "EXPOSURE_EXCEEDS_RESERVATION"
  refuse (request.valueWei + request.maxGasCostWei + request.l1DataGasWei >
      reservation.amountWei) "EXPOSURE_EXCEEDS_RESERVATION"

/-- The reservation of a wallet among those of the run; of several the last one counts. -/
def reservationOf (admitted : AdmittedRun) (view : GateView) (address : String) :
    Option Reservation :=
  (view.reservations.filter fun reservation =>
      reservation.runId = admitted.runId ∧ reservation.id ∈ admitted.reservationIds).reverse.find?
    fun reservation => toLowerCase reservation.wallet = toLowerCase address

/-- `preSignReservationGate` on what the store holds now. -/
def gateNow (admitted : AdmittedRun) (view : GateView) (request : ReserveRequest) :
    Except Error Reservation := do
  refuse (view.killed = true) "KILLED"
  refuse (admitted.campaign.chainId ≠ .ethereum ∧ view.liveGrant = none)
    "CHAIN_ENABLEMENT_NOT_CURRENT"
  refuse (admitted.campaign.chainId ≠ .ethereum ∧ request.valueWei > 0 ∧
      view.liveGrant ≠ some true) "PAID_ENABLEMENT_NOT_CURRENT"
  let reservation ← require (reservationOf admitted view request.address)
    "DURABLE_RESERVATION_REQUIRED"
  refuse (reservation.status ≠ .reserved) "DURABLE_RESERVATION_REQUIRED"
  refuse (request.runId ≠ admitted.runId ∨ request.campaignId ≠ admitted.campaign.id ∨
      request.executionId ≠ ⟨admitted.runId, toLowerCase request.address⟩ ∨
      request.transactionIntentId ≠ ⟨admitted.intentId, toLowerCase request.address⟩)
    "CANONICAL_IDENTITY_REQUIRED"
  assertWithinAdmittedExposure request admitted.campaign reservation
  pure reservation

end MintBot
