import MintBot.Enabling.Effects
import MintBot.Library.Machine
import MintBot.Store.Policy

/-!
# The fee policies of stored campaigns

A campaign is stored with the text of how it was created, and that text is never written again.
A snapshot rebuilds its fee policy from the text and from the fee policy that is active on its
chain at that time.  The first campaign of a chain without a policy brings one.

Of the checks of `createCampaign` those on amounts are here; the others only refuse.
-/

namespace MintBot.CampaignFees

open Fallible
open Enabling (FeePolicyVersion ContractRow CollectionRow DropRow activeOf firstId)

/-- `MAX_FREE_TIP_WEI` -/
def maxFreeTipWei : Wei := 2000000000

/-- `ROBINHOOD_FREE_PER_WALLET_CAP_WEI` -/
def robinhoodFreePerWalletCapWei : Wei := 200000000000000

structure CustodyPolicy where
  provider : String
  policyReference : String
  policyDigest : String
  recordDigest : String
  deriving DecidableEq, Repr

/-- A campaign, in what its digest and its storage read. -/
structure CampaignRecord where
  id : String
  state : CampaignState
  chainId : ChainId
  contract : String
  strategy : String
  quantity : Int
  mintPriceWei : Wei
  feePolicy : FeePolicy
  custodyPolicy : Option CustodyPolicy
  createdAt : Time
  updatedAt : Time
  deriving DecidableEq, Repr

/-! ## Tables -/

structure ProfileRow where
  id : String
  chainId : ChainId
  deriving DecidableEq, Repr

/-- `campaign`, with the campaign of `policy_snapshot_json` and the instant of its last
`state_transition`. -/
structure CampaignRow where
  id : String
  dropId : String
  state : CampaignState
  snapshot : CampaignRecord
  createdAt : Time
  changedAt : Option Time
  deriving DecidableEq, Repr

structure Tables where
  robinhoodEnablement : Option Enablement
  baseEnablement : Option Enablement
  profiles : List ProfileRow
  feePolicies : List FeePolicyVersion
  contracts : List ContractRow
  collections : List CollectionRow
  drops : List DropRow
  campaigns : List CampaignRow
  deriving DecidableEq, Repr

def Tables.empty : Tables where
  robinhoodEnablement := none
  baseEnablement := none
  profiles := []
  feePolicies := []
  contracts := []
  collections := []
  drops := []
  campaigns := []

/-- The active policy of a profile, as every query reads it. -/
def Tables.activeFeePolicy (tables : Tables) (profileId : String) : Option FeePolicyVersion :=
  (activeOf profileId tables.feePolicies).getLast?

/-- The fleet policy of the application and that of the store, the names of new rows, and the
campaigns whose text `encode` refuses. -/
structure Setup where
  applicationPolicy : Option FleetSpendPolicy
  fleetPolicy : Option FleetSpendPolicy
  names : Enabling.Outside
  ethereumProfileId : String
  secretLike : CampaignRecord → Bool

/-! ## Reading campaigns -/

/-- `mapFeePolicy` of a decoded policy. -/
def mapFeePolicy (item : Option FeePolicy) (mintPriceWei : Wei) (paidMintsEnabled : Bool) :
    FeePolicy :=
  let configuredPriorityFeeWei := (item.map FeePolicy.configuredPriorityFeeWei).getD 0
  let l2ExecutionGasBudgetWei := (item.bind FeePolicy.l2ExecutionGasBudgetWei).getD 0
  let l1DataGasBudgetWei := (item.bind FeePolicy.l1DataGasBudgetWei).getD 0
  { kind :=
      if item.map FeePolicy.kind = some .paid ∨ (paidMintsEnabled = true ∧ 0 < mintPriceWei) then
        .paid
      else .free
    configuredPriorityFeeWei := configuredPriorityFeeWei
    freeTotalSpendCapWei := item.bind FeePolicy.freeTotalSpendCapWei
    l2ExecutionGasBudgetWei := some l2ExecutionGasBudgetWei
    l1DataGasBudgetWei := some l1DataGasBudgetWei
    totalFeeBudgetWei := some ((item.bind FeePolicy.totalFeeBudgetWei).getD
      (configuredPriorityFeeWei + l2ExecutionGasBudgetWei + l1DataGasBudgetWei)) }

/-- `readFeePolicy` -/
def Tables.readFeePolicy (tables : Tables) (chainProfileId : String) (mintPriceWei : Wei)
    (fallback : Option FeePolicy) : FeePolicy :=
  match tables.activeFeePolicy chainProfileId with
  | none => mapFeePolicy fallback mintPriceWei false
  | some row =>
      let source := mapFeePolicy fallback mintPriceWei row.paidMintsEnabled
      let configuredPriorityFeeWei := row.freeMintPriorityFeeComponentWei
      let feeBudget := source.l2ExecutionGasBudgetWei.getD 0 + source.l1DataGasBudgetWei.getD 0 +
        configuredPriorityFeeWei
      let sourceTotalFeeBudgetWei := source.totalFeeBudgetWei.getD 0
      { source with
        kind := (fallback.map FeePolicy.kind).getD
          (if row.paidMintsEnabled = true ∧ 0 < mintPriceWei then .paid else .free)
        configuredPriorityFeeWei := configuredPriorityFeeWei
        freeTotalSpendCapWei := some row.freeMintTotalFeeCapWei
        totalFeeBudgetWei := some
          (if sourceTotalFeeBudgetWei = 0 then row.maxTotalFeeWei
          else if feeBudget < sourceTotalFeeBudgetWei then sourceTotalFeeBudgetWei
          else feeBudget) }

/-- What a drop belongs to. -/
structure Place where
  drop : DropRow
  contract : ContractRow
  profile : ProfileRow
  deriving DecidableEq, Repr

/-- A drop, joined with its collection, contract and chain profile. -/
def Tables.place (tables : Tables) (dropId : String) : Option Place := do
  let drop ← Table.lookup DropRow.id dropId tables.drops
  let collection ← Table.lookup CollectionRow.id drop.collectionId tables.collections
  let contract ← Table.lookup ContractRow.id collection.contractId tables.contracts
  let profile ← Table.lookup ProfileRow.id contract.chainProfileId tables.profiles
  return { drop := drop, contract := contract, profile := profile }

def Tables.readCampaign (tables : Tables) (row : CampaignRow) : Option CampaignRecord := do
  let place ← tables.place row.dropId
  return {
    id := row.id
    state := row.state
    chainId := place.profile.chainId
    contract := place.contract.address
    strategy := place.drop.strategy
    quantity := row.snapshot.quantity
    mintPriceWei := place.drop.mintPriceWei
    feePolicy := tables.readFeePolicy place.profile.id place.drop.mintPriceWei
      (some row.snapshot.feePolicy)
    custodyPolicy := row.snapshot.custodyPolicy
    createdAt := row.createdAt
    updatedAt := row.changedAt.getD row.createdAt }

/-- `readCampaigns`, in the order of the rows; its readers look a campaign up by its id. -/
def Tables.readCampaigns (tables : Tables) : List CampaignRecord :=
  tables.campaigns.filterMap tables.readCampaign

/-- The campaign of an id in a snapshot. -/
def Tables.campaign (tables : Tables) (id : String) : Option CampaignRecord :=
  Table.lookup CampaignRecord.id id tables.readCampaigns

/-- The values that `campaignInputDigest` writes as JSON.  The order of the properties is that of
the snapshot text. -/
structure CampaignInputs where
  chainId : ChainId
  contract : String
  strategy : String
  quantity : Int
  mintPriceWei : Wei
  feePolicy : FeePolicy
  custodyPolicy : Option CustodyPolicy
  deriving DecidableEq, Repr

/-- `campaignInputDigest`, for the digest of what it writes. -/
def campaignInputDigest (digest : CampaignInputs → String) (campaign : CampaignRecord) : String :=
  digest {
    chainId := campaign.chainId
    contract := toLowerCase campaign.contract
    strategy := campaign.strategy
    quantity := campaign.quantity
    mintPriceWei := campaign.mintPriceWei
    feePolicy := campaign.feePolicy
    custodyPolicy := campaign.custodyPolicy }

/-! ## Fee policies -/

/-- An insert into `fee_policy`, under its constraints. -/
def insertFeePolicy (row : FeePolicyVersion) (tables : Tables) : Except Error Tables := do
  refuse (¬ row.Checked) "CHECK constraint failed"
  refuse (∃ old ∈ tables.feePolicies, old.id = row.id)
    "UNIQUE constraint failed: fee_policy.id"
  refuse (∃ old ∈ tables.feePolicies,
      old.chainProfileId = row.chainProfileId ∧ old.version = row.version)
    "UNIQUE constraint failed: fee_policy.chain_profile_id, fee_policy.version"
  refuse (row.active = true ∧ activeOf row.chainProfileId tables.feePolicies ≠ [])
    "UNIQUE constraint failed: fee_policy.chain_profile_id"
  return { tables with feePolicies := tables.feePolicies ++ [row] }

/-- `UPDATE fee_policy SET active = 0 WHERE chain_profile_id = ? AND active = 1` -/
def Tables.deactivateFeePolicies (tables : Tables) (chainProfileId : String) : Tables :=
  { tables with
    feePolicies := tables.feePolicies.map fun row =>
      if row.active = true ∧ row.chainProfileId = chainProfileId then { row with active := false }
      else row }

/-- How an enablement, a revocation and `applyApprovedEthereumFeePolicy` write the fee policies:
the active one of a profile is replaced, in one transaction. -/
def replaceFeePolicy (row : FeePolicyVersion) (tables : Tables) : Except Error Tables :=
  insertFeePolicy { row with active := true } (tables.deactivateFeePolicies row.chainProfileId)

/-- `insertFeePolicyRow` of a seed. -/
def seedRow (setup : Setup) (now : Time) (chainProfileId : String) (chainId : ChainId)
    (seed : Wei × Wei × Wei) (paid : Bool) (tables : Tables) : FeePolicyVersion :=
  let sequence :=
    (tables.feePolicies.filter fun row => row.chainProfileId = chainProfileId).length
  let values := (seed.1, seed.2.1, seed.2.2, paid)
  { id := setup.names.feePolicyId chainProfileId sequence values now
    chainProfileId := chainProfileId
    version := setup.names.feePolicyVersion chainProfileId sequence values now
    priorityFeeSemantics := if chainId = .ethereum then .ordering else .feeOnly
    maxTotalFeeWei := seed.1
    freeMintTotalFeeCapWei := seed.2.1
    freeMintPriorityFeeComponentWei := seed.2.2
    freeMintPriorityFeeMultiplier := 2
    paidMintsEnabled := paid
    active := true
    createdAt := now
    zeroPriorityFeePolicy := if seed.2.2 = 0 then .requiresPoResolution else .allowed }

/-- `ensureFeePolicy` -/
def ensureFeePolicy (setup : Setup) (now : Time) (chainProfileId : String) (policy : FeePolicy)
    (chainId : ChainId) (tables : Tables) : Except Error Tables := do
  onlyIf (policy.kind = .paid ∧ chainId = .robinhood)
    (assertRobinhoodLiveAllowed .paid tables.robinhoodEnablement now)
  onlyIf (chainId = .base) (assertBaseLiveAllowed policy.kind tables.baseEnablement now)
  match tables.activeFeePolicy chainProfileId with
  | some existing =>
      refuse (policy.kind = .paid ∧ existing.paidMintsEnabled = false) "PAID_MINT_POLICY_REQUIRED"
      return tables
  | none =>
      insertFeePolicy (seedRow setup now chainProfileId chainId
        (feePolicySeed setup.fleetPolicy policy chainId) (decide (policy.kind = .paid)) tables)
        tables

/-! ## Storing campaigns -/

/-- A row that is there already, or a new one. -/
def ensureRow {ρ : Type} (key : ρ → String) (existing : Option String) (row : ρ) (rows : List ρ) :
    Except Error (String × List ρ) :=
  match existing with
  | some id => .ok (id, rows)
  | none => do
      refuse (∃ old ∈ rows, key old = key row) "UNIQUE constraint failed"
      return (key row, rows ++ [row])

def ensureContract (setup : Setup) (chainProfileId contract : String) (rows : List ContractRow) :
    Except Error (String × List ContractRow) :=
  ensureRow ContractRow.id
    ((rows.find? fun row => row.chainProfileId = chainProfileId ∧
      toLowerCase row.address = toLowerCase contract).map ContractRow.id)
    { id := setup.names.contractId chainProfileId (toLowerCase contract)
      chainProfileId := chainProfileId
      address := contract } rows

def ensureCollection (setup : Setup) (contractId strategy : String) (rows : List CollectionRow) :
    Except Error (String × List CollectionRow) :=
  ensureRow CollectionRow.id
    (firstId ((rows.filter fun row => row.contractId = contractId).map CollectionRow.id))
    { id := setup.names.collectionId contractId, contractId := contractId, name := strategy } rows

def ensureDrop (setup : Setup) (collectionId strategy : String) (mintPriceWei : Wei)
    (rows : List DropRow) : Except Error (String × List DropRow) :=
  ensureRow DropRow.id
    (firstId ((rows.filter fun row => row.collectionId = collectionId ∧ row.strategy = strategy ∧
      row.mintPriceWei = mintPriceWei).map DropRow.id))
    { id := setup.names.dropId collectionId strategy mintPriceWei
      collectionId := collectionId
      strategy := strategy
      mintPriceWei := mintPriceWei } rows

/-- An insert into `chain_profile`. -/
def insertProfile (row : ProfileRow) (tables : Tables) : Except Error Tables := do
  refuse (∃ old ∈ tables.profiles, old.id = row.id ∨ old.chainId = row.chainId)
    "UNIQUE constraint failed: chain_profile"
  return { tables with profiles := tables.profiles ++ [row] }

/-- `ensureEthereumChainProfile`, which only a campaign of Ethereum calls. -/
def ensureChainProfile (setup : Setup) (chainId : ChainId) (tables : Tables) :
    Except Error Tables :=
  match chainId, Table.lookup ProfileRow.chainId .ethereum tables.profiles with
  | .ethereum, none =>
      insertProfile { id := setup.ethereumProfileId, chainId := .ethereum } tables
  | _, _ => .ok tables

/-- `ensureCampaignGraph`, with the drop of the campaign. -/
def ensureCampaignGraph (setup : Setup) (now : Time) (campaign : CampaignRecord)
    (tables : Tables) : Except Error (String × Tables) := do
  let tables ← ensureChainProfile setup campaign.chainId tables
  let profile ← require (Table.lookup ProfileRow.chainId campaign.chainId tables.profiles)
    "CANONICAL_CHAIN_PROFILE_REQUIRED"
  let (contractId, contracts) ← ensureContract setup profile.id campaign.contract tables.contracts
  let (collectionId, collections) ←
    ensureCollection setup contractId campaign.strategy tables.collections
  let (dropId, drops) ←
    ensureDrop setup collectionId campaign.strategy campaign.mintPriceWei tables.drops
  let tables ← ensureFeePolicy setup now profile.id campaign.feePolicy campaign.chainId
    { tables with contracts := contracts, collections := collections, drops := drops }
  return (dropId, tables)

/-- `campaign_state_transition_guard` -/
def mayFollow : CampaignState → CampaignState → Bool
  | .draft, next => next = .validating ∨ next = .cancelled
  | .validating, next => next = .ready ∨ next = .failed ∨ next = .cancelled
  | .ready, next => next = .armed ∨ next = .failed ∨ next = .cancelled
  | .armed, next => next = .active ∨ next = .paused ∨ next = .aborted ∨ next = .cancelled
  | .paused, next => next = .armed ∨ next = .aborted ∨ next = .cancelled
  | .active, next => next = .completed ∨ next = .failed ∨ next = .aborted
  | .completed, _ | .failed, _ | .aborted, _ | .cancelled, _ => false

/-- `persistCampaign` -/
def persistCampaign (setup : Setup) (now : Time) (campaign : CampaignRecord)
    (prior : Option CampaignRecord) (tables : Tables) : Except Error Tables := do
  if prior = some campaign then return tables
  let (dropId, tables) ← ensureCampaignGraph setup now campaign tables
  match prior with
  | none =>
      refuse (setup.secretLike campaign = true) "SECRET_LIKE_STATE_REJECTED"
      refuse (campaign.state ≠ .draft) "campaigns must be created in draft state"
      refuse (∃ old ∈ tables.campaigns, old.id = campaign.id)
        "UNIQUE constraint failed: campaign.id"
      return { tables with
        campaigns := tables.campaigns ++
          [{ id := campaign.id, dropId := dropId, state := campaign.state, snapshot := campaign,
             createdAt := campaign.createdAt, changedAt := none }] }
  | some prior =>
      if prior.state = campaign.state then return tables
      refuse (mayFollow prior.state campaign.state = false) "invalid campaign lifecycle transition"
      return { tables with
        campaigns := Table.update CampaignRow.id campaign.id
          (fun row => { row with state := campaign.state, changedAt := some campaign.updatedAt })
          tables.campaigns }

/-- A transaction that changes the campaigns of a snapshot, and `persist` of what it left. -/
def transaction (setup : Setup) (now : Time)
    (change : List CampaignRecord → List CampaignRecord) (tables : Tables) :
    Except Error Tables :=
  let previous := tables.readCampaigns
  (change previous).foldlM (fun tables campaign =>
    persistCampaign setup now campaign (Table.lookup CampaignRecord.id campaign.id previous) tables)
    tables

/-! ## Creating campaigns -/

structure CampaignInput where
  chainId : ChainId
  contract : String
  strategy : String
  quantity : Int
  maxRunWei : Wei
  dailyCapWei : Wei
  gasCeilingWei : Wei
  broadcastMode : Option BroadcastMode
  mintPriceWei : Option Wei
  feePolicy : FeePolicy
  custodyPolicy : Option CustodyPolicy
  deriving DecidableEq, Repr

/-- `assertRobinhoodFreePolicy` -/
def assertRobinhoodFreePolicy (gasCeilingWei activePeriodCapWei reservationWei : Wei) :
    Except Error Unit := do
  refuse (robinhoodFreePerWalletCapWei < gasCeilingWei) "ROBINHOOD_PER_WALLET_CAP_EXCEEDED"
  refuse (robinhoodFreeActivePeriodCapWei < activePeriodCapWei)
    "ROBINHOOD_ACTIVE_PERIOD_CAP_EXCEEDED"
  refuse (robinhoodFreePerWalletCapWei < reservationWei) "ROBINHOOD_PER_WALLET_RESERVE_EXCEEDED"

/-- The approved fee allowance of a wallet on a chain. -/
def approvedAllowanceWei (applicationPolicy : Option FleetSpendPolicy) : ChainId → Option Wei
  | .base => some basePersonalLiveFleetPolicy.freeFeeAllowanceWei
  | .robinhood => some robinhoodFreePerWalletCapWei
  | .ethereum => applicationPolicy.map FleetSpendPolicy.freeFeeAllowanceWei

/-- The branch of a free campaign. -/
def checkFreeCampaign (applicationPolicy : Option FleetSpendPolicy) (input : CampaignInput)
    (totalFeeBudget : Wei) : Except Error Unit := do
  refuse (input.mintPriceWei.getD 0 ≠ 0) "FREE_MINT_VALUE_MUST_BE_ZERO"
  let allowance := approvedAllowanceWei applicationPolicy input.chainId
  if allowance ≠ none ∧ input.feePolicy.freeTotalSpendCapWei = allowance then
    refuse (input.feePolicy.configuredPriorityFeeWei ≤ 0 ∨
      maxFreeTipWei < input.feePolicy.configuredPriorityFeeWei) "FREE_TIP_OUT_OF_RANGE"
    refuse (allowance.getD 0 < totalFeeBudget) "FREE_TOTAL_SPEND_CAP_EXCEEDED"
  else
    let freeCap := input.feePolicy.configuredPriorityFeeWei * 2
    refuse (input.feePolicy.freeTotalSpendCapWei ≠ some freeCap) "FREE_TOTAL_SPEND_POLICY_INVALID"
    refuse (freeCap < totalFeeBudget) "FREE_TOTAL_SPEND_CAP_EXCEEDED"
  onlyIf (input.chainId = .robinhood)
    (assertRobinhoodFreePolicy input.gasCeilingWei input.dailyCapWei totalFeeBudget)
  refuse (input.chainId = .base ∧
    (basePersonalLiveFleetPolicy.freeDailyCapWei < input.dailyCapWei ∨
      basePersonalLiveFleetPolicy.freeFeeAllowanceWei < totalFeeBudget)) "BASE_FREE_CAP_EXCEEDED"

/-- The branch of a paid campaign. -/
def checkPaidCampaign (now : Time) (tables : Tables) (input : CampaignInput)
    (totalFeeBudget : Wei) : Except Error Unit := do
  let mintPriceWei := input.mintPriceWei.getD 0
  onlyIf (input.chainId = .robinhood)
    (assertRobinhoodLiveAllowed .paid tables.robinhoodEnablement now)
  onlyIf (input.chainId = .base) (assertBaseLiveAllowed .paid tables.baseEnablement now)
  refuse (input.chainId = .ethereum ∧ input.broadcastMode ≠ some .publicMode)
    "PAID_ETHEREUM_PUBLIC_MODE_REQUIRED"
  refuse (mintPriceWei ≤ 0) "PAID_MINT_VALUE_REQUIRED"
  let allInExposure := mintPriceWei * input.quantity + totalFeeBudget
  refuse (input.maxRunWei < allInExposure ∨ input.dailyCapWei < allInExposure)
    "PAID_ETHEREUM_CAP_REQUIRED"

/-- The checks of `createCampaign`. -/
def checkCampaign (setup : Setup) (now : Time) (tables : Tables) (input : CampaignInput) :
    Except Error Unit := do
  refuse (input.quantity < 1 ∨ maxSafeInteger < input.quantity) "INVALID_QUANTITY"
  refuse (input.maxRunWei < 0 ∨ input.dailyCapWei < 0 ∨ input.gasCeilingWei < 0 ∨
    input.mintPriceWei.getD 0 < 0) "INVALID_SPEND_POLICY"
  refuse (input.broadcastMode = some .flashbots ∧ input.chainId ≠ .ethereum)
    "FLASHBOTS_ETHEREUM_ONLY"
  refuse (input.chainId = .robinhood ∧ input.broadcastMode ≠ some .sequencer)
    "ROBINHOOD_SEQUENCER_REQUIRED"
  refuse (input.chainId = .base ∧ input.broadcastMode ≠ some .publicMode)
    "BASE_SINGLE_PRIMARY_RPC_REQUIRED"
  refuse (input.chainId = .base ∧ 4 < input.quantity) "BASE_QUANTITY_LIMIT_EXCEEDED"
  refuse (input.chainId = .ethereum ∧ input.broadcastMode = some .sequencer)
    "SEQUENCER_ROBINHOOD_ONLY"
  refuse (input.feePolicy.configuredPriorityFeeWei < 0) "INVALID_PRIORITY_FEE_POLICY"
  refuse (input.feePolicy.l2ExecutionGasBudgetWei = none ∨
    input.feePolicy.l1DataGasBudgetWei = none ∨
    (∃ budget ∈ input.feePolicy.l2ExecutionGasBudgetWei, budget < 0) ∨
    ∃ budget ∈ input.feePolicy.l1DataGasBudgetWei, budget < 0) "GAS_COMPONENT_BUDGETS_REQUIRED"
  let totalFeeBudget := input.feePolicy.configuredPriorityFeeWei +
    input.feePolicy.l2ExecutionGasBudgetWei.getD 0 + input.feePolicy.l1DataGasBudgetWei.getD 0
  refuse (input.feePolicy.totalFeeBudgetWei ≠ some totalFeeBudget) "TOTAL_FEE_BUDGET_MISMATCH"
  refuse (input.gasCeilingWei < totalFeeBudget) "GAS_CEILING_EXCEEDED"
  if input.feePolicy.kind = .paid then
    checkPaidCampaign now tables input totalFeeBudget
  else
    checkFreeCampaign setup.applicationPolicy input totalFeeBudget

/-- The campaign that `createCampaign` makes of an input. -/
def CampaignInput.campaign (input : CampaignInput) (id : String) (now : Time) : CampaignRecord where
  id := id
  state := .draft
  chainId := input.chainId
  contract := input.contract
  strategy := input.strategy
  quantity := input.quantity
  mintPriceWei := input.mintPriceWei.getD 0
  feePolicy := input.feePolicy
  custodyPolicy := input.custodyPolicy
  createdAt := now
  updatedAt := now

/-- `createCampaign`, under the id it draws. -/
def createCampaign (setup : Setup) (now : Time) (id : String) (input : CampaignInput)
    (tables : Tables) : Except Error Tables := do
  checkCampaign setup now tables input
  transaction setup now (fun campaigns => campaigns ++ [input.campaign id now]) tables

/-- A campaign is moved to a state. -/
def changeState (setup : Setup) (now : Time) (id : String) (state : CampaignState)
    (tables : Tables) : Except Error Tables :=
  transaction setup now (Table.update CampaignRecord.id id fun campaign =>
    { campaign with state := state, updatedAt := now }) tables

/-! ## Runs -/

inductive Call
  | insertProfile (row : ProfileRow)
  /-- The owner's records about Robinhood and Base, as they are from now on. -/
  | enable (robinhood base : Option Enablement)
  | replaceFeePolicy (row : FeePolicyVersion)
  | createCampaign (id : String) (input : CampaignInput)
  | changeState (id : String) (state : CampaignState)
  deriving DecidableEq, Repr

def step (setup : Setup) (call : Time × Call) (tables : Tables) : Except Error Tables :=
  match call.2 with
  | .insertProfile row => insertProfile row tables
  | .enable robinhood base =>
      .ok { tables with robinhoodEnablement := robinhood, baseEnablement := base }
  | .replaceFeePolicy row => replaceFeePolicy row tables
  | .createCampaign id input => createCampaign setup call.1 id input tables
  | .changeState id state => changeState setup call.1 id state tables

/-- The campaign of the call, if there is one. -/
def Call.campaignId : Call → Option String
  | .createCampaign id _ | .changeState id _ => some id
  | .insertProfile _ | .enable _ _ | .replaceFeePolicy _ => none

/-- The campaign that a call creates; ids are not given twice. -/
def created (setup : Setup) (tables : Tables) (call : Time × Call) : Option CampaignRecord :=
  match call.2, step setup call tables with
  | .createCampaign id input, .ok _ =>
      if tables.campaign id = none then some (input.campaign id call.1) else none
  | _, _ => none

/-- The policy that is active on a chain. -/
def Tables.chainPolicy (tables : Tables) (chainId : ChainId) : Option FeePolicyVersion :=
  (Table.lookup ProfileRow.chainId chainId tables.profiles).bind fun profile =>
    tables.activeFeePolicy profile.id

/-- The campaigns that a run creates. -/
def creations (setup : Setup) : Tables → List (Time × Call) → List CampaignRecord
  | _, [] => []
  | tables, call :: calls =>
      (created setup tables call).toList ++
        creations setup (Machine.apply (step setup) tables call) calls

/-- The tables after calls on a new database. -/
def Tables.after (setup : Setup) (calls : List (Time × Call)) : Tables :=
  Machine.applyAll (step setup) Tables.empty calls

end MintBot.CampaignFees
