import Mathlib.Data.List.DropRight
import MintBot.Coordinator.Facts
import MintBot.Funding.EthText
import MintBot.Funding.Plan
import MintBot.Library.Fallible
import MintBot.Library.Json.Number

/-!
# The stated maximum

Before a live request, a guided live run, a fire or a schedule the owner is shown
the most that can be spent, and confirms a phrase that names it.  The four texts
show the exact total with the places behind the sixth cut off, so they cover it
exactly when nothing is cut off.
-/

namespace MintBot

open Fallible

/-- A campaign with the fields that the previews show. -/
structure LiveCampaign extends Campaign where
  contract : String
  dryRun : Bool
  deriving DecidableEq, Repr

/-- `text.slice(0, count)`. -/
def firstChars (count : Nat) (text : String) : String :=
  String.ofList (text.toList.take count)

/-- `text.slice(-count)`. -/
def lastChars (count : Nat) (text : String) : String :=
  String.ofList (text.toList.rtake count)

/-- `[...new Set(items)]`: each item where it is met first. -/
def distinctItems (items : List String) : List String :=
  items.reverse.dedup.reverse

/-- A finite number as the language writes it. -/
def numberText (number : Json.Number) : String :=
  String.ofList (number.text.map fun unit => Char.ofNat unit.toNat)

/-- The value of a finite number. -/
def numberValue (number : Json.Number) : ℚ :=
  (if number.negative then -1 else 1) *
    (number.digits.foldl (fun total digit => 10 * total + (digit : Nat)) 0 : Nat) *
      (10 : ℚ) ^ (number.point - number.digits.length)

/-- The chain ids as numbers. -/
def ChainId.number : ChainId → Nat
  | .ethereum => 1
  | .base => 8453
  | .robinhood => 4663

/-! ## The money at stake -/

/-- The most that one wallet of a campaign can spend. -/
def perWalletWei (campaign : Campaign) (fee : Wei) : Wei :=
  campaign.mintPriceWei * campaign.quantity + fee

/-- The most that a count of wallets can spend; a missing fee budget counts as none. -/
def worstCaseWei (campaign : Campaign) (walletCount : Nat) : Wei :=
  perWalletWei campaign (campaign.feePolicy.totalFeeBudgetWei.getD 0) * walletCount

/-- `sizedWalletCount`: beyond the exact numbers the quotient is larger than any list. -/
def sizedWalletCount (campaign : Campaign) : Int :=
  match campaign.feePolicy.totalFeeBudgetWei with
  | none => 0
  | some fee =>
      if perWalletWei campaign fee ≤ 0 then 0
      else campaign.spendPolicy.maxRunWei.tdiv (perWalletWei campaign fee)

/-- `Math.max(1, sizedWalletCount(campaign))`. -/
def walletBound (campaign : Campaign) : Nat :=
  (max 1 (sizedWalletCount campaign)).toNat

/-! ## The preview of a live request -/

structure SimulationRecord where
  id : String
  campaignId : CampaignId
  wallet : String
  success : Bool
  checkedAt : Time
  expiresAt : Time
  deriving DecidableEq, Repr

structure LiveRequestPreview where
  campaignId : CampaignId
  chainId : ChainId
  contract : String
  quantityPerWallet : Int
  priceEth : String
  wallets : List String
  simulationIds : List String
  maxExposureWei : String
  maxExposureEth : String
  maxFeeGwei : Json.Number
  phrase : String
  evidenceAt : Time

/-- What the previews read of the store. -/
structure RequestState where
  campaigns : List LiveCampaign
  simulations : List SimulationRecord

/-- `liveRequestPhrase`. -/
def liveRequestPhrase (campaignId : CampaignId) (walletCount : Nat) (maxExposureEth : String)
    (maxFeeGwei : Json.Number) : String :=
  s!"LIVE-REQUEST {lastChars 8 campaignId} {walletCount}-WALLETS {maxExposureEth} {numberText maxFeeGwei}-GWEI"

/-- The entry of the map `latest` for a wallet: the fresh passing simulation checked last. -/
def latestSimulation (simulations : List SimulationRecord) (campaignId : CampaignId) (now : Time)
    (wallet : String) : Option SimulationRecord :=
  simulations.foldl (fun latest simulation =>
    if simulation.campaignId ≠ campaignId ∨ simulation.success = false ∨
        simulation.expiresAt ≤ now ∨ toLowerCase simulation.wallet ≠ wallet then latest
    else match latest with
      | none => some simulation
      | some earlier =>
          if earlier.checkedAt < simulation.checkedAt then some simulation else latest) none

/-- `previewLiveRequest`.  The fee ceiling is missing where it is not a finite number. -/
def previewLiveRequest (state : RequestState) (campaignId : CampaignId) (wallets : List String)
    (maxFeeGwei : Option Json.Number) (now : Time) : Except Error LiveRequestPreview := do
  let ceiling ← require
    (maxFeeGwei.filter fun fee => decide (0 < numberValue fee ∧ numberValue fee ≤ 500))
    "MAX_FEE_GWEI_REQUIRED: pass --max-fee-gwei (above 0, at most 500)"
  let campaign ← require (state.campaigns.find? fun campaign => campaign.id = campaignId)
    "CAMPAIGN_NOT_FOUND"
  refuse (campaign.dryRun = true) "LIVE_REQUIRES_NON_DRY_CAMPAIGN"
  let unique := distinctItems (wallets.map toLowerCase)
  refuse (unique = [] ∨ unique.length ≠ wallets.length ∨ ∃ wallet ∈ unique, ¬ IsAddress wallet)
    "WALLETS_INVALID: give each wallet address once"
  let latest := latestSimulation state.simulations campaignId now
  let missing := unique.filter fun wallet => (latest wallet).isNone
  refuse (missing ≠ [])
    s!"SIMULATION_REQUIRED: record a fresh passing simulation for {missing.length} wallet(s) first"
  let fee ← require campaign.feePolicy.totalFeeBudgetWei "TOTAL_FEE_BUDGET_REQUIRED"
  let perWallet := perWalletWei campaign.toCampaign fee
  let total := perWallet * unique.length
  let sized := sizedWalletCount campaign.toCampaign
  refuse (perWallet ≤ 0 ∨ campaign.spendPolicy.maxRunWei < total)
    s!"PLANNED_EXPOSURE_INVALID: this campaign was sized for {sized} wallet(s); you chose {unique.length}. Use {sized} or fewer, or prepare a new campaign sized for more."
  let maxExposureEth := formatEth total
  return {
    campaignId := campaignId
    chainId := campaign.chainId
    contract := campaign.contract
    quantityPerWallet := campaign.quantity
    priceEth := formatEth campaign.mintPriceWei
    wallets := unique
    simulationIds := unique.filterMap fun wallet => (latest wallet).map SimulationRecord.id
    maxExposureWei := toString total
    maxExposureEth := maxExposureEth
    maxFeeGwei := ceiling
    phrase := liveRequestPhrase campaignId unique.length maxExposureEth ceiling
    evidenceAt := now }

/-- The wallets of the request that `createRequest` records: at most as many as the campaign was
sized for, and accepted by the preview. -/
def createRequestWallets (state : RequestState) (campaign : LiveCampaign) (wallets : List String)
    (maxFeeGwei : Option Json.Number) (now : Time) : Except Error (List String × List String) := do
  let used := wallets.take (walletBound campaign.toCampaign)
  let leftOut := wallets.drop (walletBound campaign.toCampaign)
  let preview ← previewLiveRequest state campaign.id used maxFeeGwei now
  return (preview.wallets, leftOut)

/-! ## The preview of a guided live run -/

/-- What a `quantity_plan` event says. -/
structure QuantityPlanEvent where
  runId : Option RunId
  campaignId : Option CampaignId
  message : Option String
  reduced : Bool
  maxFeeGwei : Option String
  deriving DecidableEq, Repr

structure LiveRunState where
  runs : List RunRecord
  campaigns : List LiveCampaign
  intents : List IntentRecord
  reservations : List Reservation
  /-- The events of type `quantity_plan`. -/
  quantityPlans : List QuantityPlanEvent

structure LiveRunPreview where
  runId : RunId
  campaignId : CampaignId
  contract : String
  wallets : List String
  quantityPerWallet : Int
  maxExposureWei : String
  maxExposureEth : String
  planningMaxFeeGwei : Option String
  quantityNote : Option String
  phrase : String
  deriving DecidableEq, Repr

/-- `liveRunPhrase`. -/
def liveRunPhrase (runId : RunId) (maxExposureEth : String) : String :=
  s!"RUN-LIVE {lastChars 8 runId} {maxExposureEth}"

/-- `quantityPlanForRun`. -/
def quantityPlanForRun (plans : List QuantityPlanEvent) (runId : RunId) (campaignId : CampaignId) :
    Option QuantityPlanEvent :=
  (plans.filter fun plan => plan.runId = some runId ∨ plan.campaignId = some campaignId).getLast?

/-- `previewLiveRun`. -/
def previewLiveRun (state : LiveRunState) (runId : RunId) : Except Error LiveRunPreview := do
  let run ← require (state.runs.find? fun run => run.id = runId) "RUN_NOT_FOUND"
  refuse (run.mode ≠ .live) "LIVE_RUN_REQUIRED: this run is a dry run"
  refuse (run.state ≠ .armed) s!"RUN_NOT_ARMED: this run is {run.state.text}, not armed"
  let campaign ← require (state.campaigns.find? fun campaign => campaign.id = run.campaignId)
    "RUN_RECORDS_INCOMPLETE"
  let intent ← require (state.intents.find? fun intent => intent.id = run.intentId)
    "RUN_RECORDS_INCOMPLETE"
  let fee ← require campaign.feePolicy.totalFeeBudgetWei "TOTAL_FEE_BUDGET_REQUIRED"
  let perWallet := perWalletWei campaign.toCampaign fee
  let total := perWallet * intent.wallets.length
  refuse (intent.wallets = [] ∨ perWallet ≤ 0 ∨ campaign.spendPolicy.maxRunWei < total)
    "PLANNED_EXPOSURE_INVALID"
  let reservations := state.reservations.filter fun reservation => reservation.runId = runId
  refuse (reservations ≠ [] ∧ (reservations.length ≠ intent.wallets.length ∨
      (∃ reservation ∈ reservations, reservation.status ≠ .reserved) ∨
      (reservations.map Reservation.amountWei).sum ≠ total))
    "RESERVATION_EXPOSURE_MISMATCH"
  let plan := quantityPlanForRun state.quantityPlans runId campaign.id
  let maxExposureEth := formatEth total
  return {
    runId := runId
    campaignId := campaign.id
    contract := campaign.contract
    wallets := intent.wallets
    quantityPerWallet := campaign.quantity
    maxExposureWei := toString total
    maxExposureEth := maxExposureEth
    planningMaxFeeGwei := plan.bind QuantityPlanEvent.maxFeeGwei
    quantityNote := plan.bind fun plan => if plan.reduced then plan.message else none
    phrase := liveRunPhrase runId maxExposureEth }

/-! ## Fires and schedules -/

/-- The wallets that a fire or a schedule spends for, however many are listed. -/
def usedWallets (campaign : Campaign) (wallets : List String) : Nat :=
  min wallets.length (walletBound campaign)

/-- The amount that `describe` and `schedulePhrase` show. -/
def statedEth (campaign : Campaign) (wallets : List String) : String :=
  formatEth (worstCaseWei campaign (usedWallets campaign wallets))

/-- `describe`. -/
def describe (campaign : LiveCampaign) (wallets : List String) (maxFeeGwei : Json.Number) : String :=
  s!"{campaign.quantity} NFT(s) per wallet at {formatEth campaign.mintPriceWei} ETH from {usedWallets campaign.toCampaign wallets} wallet(s) on chain {campaign.chainId.number}, contract {firstChars 6 campaign.contract}…{lastChars 4 campaign.contract}. The most that can be spent is {statedEth campaign.toCampaign wallets} ETH, signing at no more than {numberText maxFeeGwei} gwei. Every guard still applies."

/-- A text without the first `/\.\d{3}/`. -/
def dropMillis : List Char → List Char
  | '.' :: first :: second :: third :: rest =>
      if first.isDigit ∧ second.isDigit ∧ third.isDigit then rest
      else '.' :: dropMillis (first :: second :: third :: rest)
  | char :: rest => char :: dropMillis rest
  | [] => []

/-- `compact`: a date without its marks and milliseconds. -/
def compact (toISOString : Time → String) (date : Time) : String :=
  String.ofList (dropMillis ((toISOString date).toList.filter fun char => char ≠ '-' ∧ char ≠ ':'))

/-- `schedulePhrase`. -/
def schedulePhrase (toISOString : Time → String) (campaign : LiveCampaign) (wallets : List String)
    (maxFeeGwei : Json.Number) (opens closes : Time) : String :=
  s!"SCHEDULE {lastChars 8 campaign.id} {usedWallets campaign.toCampaign wallets}-WALLETS {statedEth campaign.toCampaign wallets} {numberText maxFeeGwei}-GWEI {compact toISOString opens}-{compact toISOString closes}"

/-! ## What an accepted preview shows -/

section Request

variable {state : RequestState} {campaignId : CampaignId} {wallets : List String}
  {maxFeeGwei : Option Json.Number} {now : Time} {preview : LiveRequestPreview}

/-- What an accepted preview says of its campaign and its wallets. -/
structure LiveRequestPreview.ShownFor (preview : LiveRequestPreview) (campaign : Campaign)
    (wallets : List String) : Prop where
  listed : preview.wallets = distinctItems (wallets.map toLowerCase)
  each : preview.wallets.length = wallets.length
  positive : 0 < worstCaseWei campaign preview.wallets.length
  shown : preview.maxExposureEth = formatEth (worstCaseWei campaign preview.wallets.length)

theorem previewLiveRequest_shows
    (accepted : previewLiveRequest state campaignId wallets maxFeeGwei now = .ok preview)
    {campaign : LiveCampaign}
    (known : (state.campaigns.find? fun campaign => campaign.id = campaignId) = some campaign) :
    preview.ShownFor campaign.toCampaign wallets := by
  simp only [previewLiveRequest, bind_eq_ok, require_eq_ok, refuse_eq_ok, pure_eq_ok, known,
    Option.some.injEq, exists_eq_left', exists_const, not_or, not_not, Int.not_le, Int.not_lt] at accepted
  obtain ⟨ceiling, -, -, ⟨nonempty, each, -⟩, -, fee, budget, ⟨positive, -⟩, rfl⟩ := accepted
  have total : perWalletWei campaign.toCampaign fee *
      (distinctItems (wallets.map toLowerCase)).length =
        worstCaseWei campaign.toCampaign (distinctItems (wallets.map toLowerCase)).length := by
    rw [worstCaseWei, budget, Option.getD_some]
  refine ⟨rfl, each, ?_, congrArg formatEth total⟩
  rw [← total]
  exact Int.mul_pos positive (Int.natCast_pos.mpr (List.length_pos_iff.mpr nonempty))

theorem mem_distinctItems {items : List String} {item : String} :
    item ∈ distinctItems items ↔ item ∈ items := by
  simp [distinctItems]

theorem nodup_distinctItems (items : List String) : (distinctItems items).Nodup :=
  List.nodup_reverse.mpr (List.nodup_dedup _)

theorem previewLiveRequest_campaign
    (accepted : previewLiveRequest state campaignId wallets maxFeeGwei now = .ok preview) :
    ∃ campaign, (state.campaigns.find? fun campaign => campaign.id = campaignId) = some campaign := by
  simp only [previewLiveRequest, bind_eq_ok, require_eq_ok] at accepted
  obtain ⟨-, -, campaign, known, -⟩ := accepted
  exact ⟨campaign, known⟩

/-- A request that is created from some of the listed wallets uses at most the stated number. -/
theorem createRequest_within {campaign : LiveCampaign} {ready : List String}
    {result : List String × List String}
    (listed : ∀ wallet ∈ ready, toLowerCase wallet ∈ wallets.map toLowerCase)
    (created : createRequestWallets state campaign ready maxFeeGwei now = .ok result) :
    result.1.length ≤ usedWallets campaign.toCampaign wallets := by
  simp only [createRequestWallets, bind_eq_ok, pure_eq_ok] at created
  obtain ⟨preview, accepted, rfl⟩ := created
  obtain ⟨known, found⟩ := previewLiveRequest_campaign accepted
  have shown := previewLiveRequest_shows accepted found
  refine le_min ?_ ?_
  · have nodup : preview.wallets.Nodup := by
      rw [shown.listed]
      exact nodup_distinctItems _
    have within : preview.wallets ⊆ wallets.map toLowerCase := by
      intro wallet member
      rw [shown.listed, mem_distinctItems] at member
      obtain ⟨original, used, rfl⟩ := List.mem_map.mp member
      exact listed original (List.mem_of_mem_take used)
    have bound := (List.subperm_of_subset nodup within).length_le
    rwa [List.length_map] at bound
  · rw [shown.each]
    exact List.length_take_le _ _

end Request

/-- An accepted preview of a run shows the worst case of the wallets of its intent. -/
theorem previewLiveRun_shows {state : LiveRunState} {runId : RunId} {preview : LiveRunPreview}
    (accepted : previewLiveRun state runId = .ok preview) {run : RunRecord}
    (found : (state.runs.find? fun run => run.id = runId) = some run) {campaign : LiveCampaign}
    (known : (state.campaigns.find? fun campaign => campaign.id = run.campaignId) = some campaign) :
    0 < worstCaseWei campaign.toCampaign preview.wallets.length ∧
      preview.maxExposureEth =
        formatEth (worstCaseWei campaign.toCampaign preview.wallets.length) := by
  simp only [previewLiveRun, bind_eq_ok, require_eq_ok, refuse_eq_ok, pure_eq_ok, found, known,
    Option.some.injEq, exists_eq_left', exists_const, not_or, not_not, Int.not_le, Int.not_lt]
    at accepted
  obtain ⟨-, -, intent, -, fee, budget, ⟨nonempty, positive, -⟩, -, rfl⟩ := accepted
  have total : perWalletWei campaign.toCampaign fee * intent.wallets.length =
      worstCaseWei campaign.toCampaign intent.wallets.length := by
    rw [worstCaseWei, budget, Option.getD_some]
  refine ⟨?_, congrArg formatEth total⟩
  dsimp only
  rw [← total]
  exact Int.mul_pos positive (Int.natCast_pos.mpr (List.length_pos_iff.mpr nonempty))

theorem covers_positive_iff {wei : Wei} (positive : 0 < wei) :
    Covers (formatEth wei) wei ↔ 10 ^ 12 ∣ wei := by
  rw [covers_formatEth_iff, or_iff_right (not_le.mpr positive)]

/-- Each of the four texts covers the worst case of the wallets that can be used, and of every
confirmation with the same phrase, exactly when nothing behind the sixth place is cut off. -/
theorem stated_maximum_covers_iff (state : RequestState) :
    (∀ campaignId wallets maxFeeGwei now preview,
      previewLiveRequest state campaignId wallets maxFeeGwei now = .ok preview →
      ∀ campaign : LiveCampaign,
        (state.campaigns.find? fun campaign => campaign.id = campaignId) = some campaign →
        ((Covers preview.maxExposureEth
            (worstCaseWei campaign.toCampaign preview.wallets.length) ∧
          ∀ otherWallets otherFee otherNow other,
            previewLiveRequest state campaignId otherWallets otherFee otherNow = .ok other →
            other.wallets.length = preview.wallets.length → other.phrase = preview.phrase →
              Covers preview.maxExposureEth
                (worstCaseWei campaign.toCampaign other.wallets.length)) ↔
          10 ^ 12 ∣ worstCaseWei campaign.toCampaign preview.wallets.length)) ∧
    (∀ state runId preview, previewLiveRun state runId = .ok preview →
      ∀ run : RunRecord, (state.runs.find? fun run => run.id = runId) = some run →
      ∀ campaign : LiveCampaign,
        (state.campaigns.find? fun campaign => campaign.id = run.campaignId) = some campaign →
        (Covers preview.maxExposureEth (worstCaseWei campaign.toCampaign preview.wallets.length) ↔
          10 ^ 12 ∣ worstCaseWei campaign.toCampaign preview.wallets.length)) ∧
    (∀ campaign wallets,
      Covers (statedEth campaign wallets)
          (worstCaseWei campaign (usedWallets campaign wallets)) ↔
        worstCaseWei campaign (usedWallets campaign wallets) ≤ 0 ∨
          10 ^ 12 ∣ worstCaseWei campaign (usedWallets campaign wallets)) ∧
    ∀ campaign wallets ready maxFeeGwei now result,
      (∀ wallet ∈ ready, toLowerCase wallet ∈ wallets.map toLowerCase) →
      createRequestWallets state campaign ready maxFeeGwei now = .ok result →
        result.1.length ≤ usedWallets campaign.toCampaign wallets := by
  refine ⟨?_, ?_, fun campaign wallets => covers_formatEth_iff _, ?_⟩
  · intro campaignId wallets maxFeeGwei now preview accepted campaign known
    have shown := previewLiveRequest_shows accepted known
    rw [shown.shown, covers_positive_iff shown.positive]
    constructor
    · exact And.left
    · intro whole
      refine ⟨whole, ?_⟩
      intro otherWallets otherFee otherNow other acceptedOther sameCount samePhrase
      rwa [sameCount, covers_positive_iff shown.positive]
  · intro state runId preview accepted run found campaign known
    obtain ⟨positive, shown⟩ := previewLiveRun_shows accepted found known
    rw [shown, covers_positive_iff positive]
  · intro campaign wallets ready maxFeeGwei now result listed created
    exact createRequest_within listed created

/-- A campaign of one free NFT for a wallet, with a fee budget. -/
def sampleLiveCampaign (feeBudgetWei : Wei) : LiveCampaign where
  id := "campaign-1"
  chainId := .base
  quantity := 1
  mintPriceWei := 0
  broadcastMode := none
  spendPolicy := ⟨1000000000000000, 1000000000000000, 1000000000000000⟩
  feePolicy := ⟨.free, 1, none, none, some feeBudgetWei, none⟩
  contract := "0x2222222222222222222222222222222222222222"
  dryRun := false

/-- One wallet of the campaign passed its simulation. -/
def sampleSimulations : List SimulationRecord := [{
  id := "simulation-1"
  campaignId := "campaign-1"
  wallet := "0x1111111111111111111111111111111111111111"
  success := true
  checkedAt := 0
  expiresAt := 1800000 }]

def sampleRequestState (feeBudgetWei : Wei) : RequestState where
  campaigns := [sampleLiveCampaign feeBudgetWei]
  simulations := sampleSimulations

/-- One gwei. -/
def oneGwei : Json.Number :=
  .one

theorem sampleRequest_accepted (feeBudgetWei : Wei) (positive : 0 < feeBudgetWei)
    (within : feeBudgetWei ≤ 1000000000000000) :
    ∃ preview, previewLiveRequest (sampleRequestState feeBudgetWei) "campaign-1"
      ["0x1111111111111111111111111111111111111111"] (some oneGwei) 1000 = .ok preview := by
  have ceiling : (0 : ℚ) < numberValue oneGwei ∧ numberValue oneGwei ≤ 500 := by
    norm_num [numberValue, oneGwei, Json.Number.one]
  simp only [previewLiveRequest, bind_eq_ok, require_eq_ok, refuse_eq_ok, pure_eq_ok,
    Option.filter_some, ceiling, and_self, decide_true, if_true, Option.some.injEq, exists_eq_left',
    exists_const]
  have wallet : distinctItems (["0x1111111111111111111111111111111111111111"].map toLowerCase) =
      ["0x1111111111111111111111111111111111111111"] := by decide +kernel
  have address : IsAddress "0x1111111111111111111111111111111111111111" := by decide +kernel
  have simulated : (latestSimulation sampleSimulations "campaign-1" 1000
      "0x1111111111111111111111111111111111111111").isNone = false := by decide +kernel
  simp only [wallet]
  refine ⟨_, sampleLiveCampaign feeBudgetWei, rfl, Bool.false_ne_true, ?_, ?_, feeBudgetWei, rfl,
    ?_, rfl⟩
  · simp [address]
  · simp [sampleRequestState, simulated]
  · have exposure : perWalletWei (sampleLiveCampaign feeBudgetWei).toCampaign feeBudgetWei =
        feeBudgetWei := by simp [perWalletWei, sampleLiveCampaign]
    rw [exposure, not_or, Int.not_le, Int.not_lt]
    exact ⟨positive, (Int.mul_one _).trans_le within⟩

/-- An amount of six places is covered. -/
theorem stated_maximum_covers_sample :
    ∃ preview, previewLiveRequest (sampleRequestState 400000000000000) "campaign-1"
        ["0x1111111111111111111111111111111111111111"] (some oneGwei) 1000 = .ok preview ∧
      Covers preview.maxExposureEth (worstCaseWei
        (sampleLiveCampaign 400000000000000).toCampaign preview.wallets.length) := by
  obtain ⟨preview, accepted⟩ := sampleRequest_accepted 400000000000000
    (by decide) (by decide)
  have exact_ := (stated_maximum_covers_iff _).1 _ _ _ _ preview accepted _ rfl
  exact ⟨preview, accepted, (exact_.mpr (Dvd.dvd.mul_right (by decide) _)).1⟩

/-- An amount with more than six places is understated in the preview of a request, and in the text
of a fire and the phrase of a schedule. -/
theorem maximum_understated :
    (¬ ∀ state campaignId wallets maxFeeGwei now preview,
      previewLiveRequest state campaignId wallets maxFeeGwei now = .ok preview →
      ∀ campaign : LiveCampaign,
        (state.campaigns.find? fun campaign => campaign.id = campaignId) = some campaign →
        Covers preview.maxExposureEth
          (worstCaseWei campaign.toCampaign preview.wallets.length)) ∧
    ¬ ∀ campaign wallets, Covers (statedEth campaign wallets)
      (worstCaseWei campaign (usedWallets campaign wallets)) := by
  constructor
  · intro claimed
    obtain ⟨preview, accepted⟩ := sampleRequest_accepted 400000900000000
      (by decide) (by decide)
    have covered := claimed _ _ _ _ _ preview accepted _ rfl
    have shown := previewLiveRequest_shows accepted rfl
    rw [shown.shown, covers_positive_iff shown.positive, shown.each] at covered
    exact absurd covered (by decide)
  · intro claimed
    have covered := claimed (sampleLiveCampaign 400000900000000).toCampaign
      ["0x1111111111111111111111111111111111111111"]
    rw [statedEth, covers_formatEth_iff] at covered
    exact absurd covered (by decide)

end MintBot
