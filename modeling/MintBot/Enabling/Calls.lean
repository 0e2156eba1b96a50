import MintBot.Enabling.Book
import MintBot.Library.Machine

/-!
# Calls that decide what the chains may do

The owner enables Base or Robinhood, free only or with paid mints, and revokes an enablement; the
service switches a chain off when its enablement is over; and a new campaign brings a fee policy
to a chain that has none.  Each call is a script of statements, in a transaction of its own.
-/

namespace MintBot.Enabling

open Script

/-! ## Enabling -/

structure PaidFeePolicy where
  id : String
  version : String
  maxTotalFeeWei : Wei
  deriving DecidableEq, Repr

structure RobinhoodPaidFeePolicy extends PaidFeePolicy where
  freeCapWei : Wei
  deriving DecidableEq, Repr

structure RobinhoodEnablementInput where
  id : String
  approvedAt : Time
  expiresAt : Time
  evidence : List (String × Bool)
  paidAllowed : Bool
  confirmationDigest : String
  strategyVersion : Option String
  deriving DecidableEq, Repr

structure RobinhoodChainInput where
  chainProfileId : String
  verificationId : String
  sequencerEndpointReference : String
  archiveEndpointReference : String
  paidFeePolicy : Option RobinhoodPaidFeePolicy
  deriving DecidableEq, Repr

structure BaseEnablementInput where
  id : String
  approvedAt : Time
  expiresAt : Time
  evidence : List (String × Bool)
  evidenceDigest : String
  confirmationDigest : String
  strategyVersion : String
  feePolicyVersion : String
  primaryEndpointReference : String
  fallbackEndpointReference : String
  custodyMode : String
  paidAllowed : Option Bool
  deriving DecidableEq, Repr

structure BaseChainInput where
  chainProfileId : String
  verificationId : String
  paidFeePolicy : Option PaidFeePolicy
  deriving DecidableEq, Repr

/-- The row that `enableRobinhood` inserts. -/
def RobinhoodEnablementInput.row (record : RobinhoodEnablementInput) : EnablementRow where
  id := record.id
  approvedBy := "owner-cli"
  approvedAt := record.approvedAt
  expiresAt := record.expiresAt
  paidAllowed := record.paidAllowed
  evidence := record.evidence
  confirmationDigest := record.confirmationDigest
  createdAt := record.approvedAt

/-- `paidAllowed === true`. -/
def BaseEnablementInput.paid (record : BaseEnablementInput) : Bool :=
  record.paidAllowed = some true

/-- The row that `enableBase` inserts. -/
def BaseEnablementInput.row (record : BaseEnablementInput) : BaseEnablementRow where
  id := record.id
  approvedBy := "owner-cli"
  approvedAt := record.approvedAt
  expiresAt := record.expiresAt
  paidAllowed := record.paid
  evidence := record.evidence
  confirmationDigest := record.confirmationDigest
  createdAt := record.approvedAt
  freeAllowed := true
  evidenceDigest := record.evidenceDigest
  strategyVersion := record.strategyVersion
  feePolicyVersion := record.feePolicyVersion
  primaryEndpointReference := record.primaryEndpointReference
  fallbackEndpointReference := record.fallbackEndpointReference
  custodyMode := record.custodyMode

/-- The policy that a paid enablement of Robinhood installs. -/
def robinhoodPaidPolicy (record : RobinhoodEnablementInput) (chain : RobinhoodChainInput)
    (paid : RobinhoodPaidFeePolicy) : FeePolicyVersion where
  id := paid.id
  chainProfileId := chain.chainProfileId
  version := paid.version
  priorityFeeSemantics := .feeOnly
  maxTotalFeeWei := paid.maxTotalFeeWei
  freeMintTotalFeeCapWei := paid.freeCapWei
  freeMintPriorityFeeComponentWei := 0
  freeMintPriorityFeeMultiplier := 2
  paidMintsEnabled := true
  active := true
  createdAt := record.approvedAt
  zeroPriorityFeePolicy := .allowed

/-- The policy that a paid enablement of Base installs: the active one, with paid mints. -/
def basePaidPolicy (record : BaseEnablementInput) (current : FeePolicyVersion)
    (chain : BaseChainInput) (paid : PaidFeePolicy) : FeePolicyVersion :=
  { current with
    id := paid.id
    chainProfileId := chain.chainProfileId
    version := paid.version
    maxTotalFeeWei := paid.maxTotalFeeWei
    paidMintsEnabled := true
    active := true
    createdAt := record.approvedAt }

def enableRobinhood (outside : Outside) (now : Time) (record : RobinhoodEnablementInput)
    (chain : RobinhoodChainInput) : Script Error Store PUnit := do
  refuse (fun _ => ∃ version ∈ record.strategyVersion,
      version ≠ "seadrop-v1-baseline-public-free-allowlist@1")
    "Robinhood strategy scope is not supported"
  refuse (fun _ => ¬ IsDigest record.confirmationDigest)
    "Robinhood enablement requires a confirmation digest"
  refuse (fun _ => ¬ CompleteEvidence .robinhood record.paidAllowed record.evidence)
    "Robinhood enablement requires E1 to E7 all passed"
  refuse (fun _ => record.paidAllowed = true ∧ chain.paidFeePolicy = none)
    "Robinhood paid enablement requires the approved paid fee policy"
  immediate do
    insertRobinhoodEnablement record.row
    recordChainVerification outside now
      { id := chain.verificationId
        chainProfileId := chain.chainProfileId
        chainId := .robinhood
        status := .verified
        checkedAt := record.approvedAt
        executionEnabled := some true
        finalityPassed := true
        expiresAt := some record.expiresAt
        sequencerEndpointReference := some chain.sequencerEndpointReference
        archiveEndpointReference := some chain.archiveEndpointReference
        approvedBy := some "owner-cli"
        approvedAt := some record.approvedAt }
    onlyIf (record.paidAllowed = true) do
      forSome chain.paidFeePolicy fun paid => do
        let current ← read fun store => store.activeFeePolicy chain.chainProfileId
        forSome current fun current => deactivateFeePolicy current.id
        insertFeePolicy (robinhoodPaidPolicy record chain paid)

def enableBase (outside : Outside) (now : Time) (record : BaseEnablementInput)
    (chain : BaseChainInput) : Script Error Store PUnit := do
  refuse (fun _ => ¬ CompleteEvidence .base record.paid record.evidence)
    "Base enablement evidence is incomplete"
  refuse (fun _ => record.paid = true ∧ chain.paidFeePolicy = none)
    "Base paid enablement requires the approved paid fee policy"
  refuse (fun _ => ¬ IsDigest record.evidenceDigest ∨ ¬ IsDigest record.confirmationDigest)
    "Base enablement requires evidence and confirmation digests"
  refuse (fun _ => record.primaryEndpointReference = record.fallbackEndpointReference)
    "Base enablement requires independent endpoint references"
  immediate do
    insertBaseEnablement record.row
    recordChainVerification outside now
      { id := chain.verificationId
        chainProfileId := chain.chainProfileId
        chainId := .base
        status := .verified
        checkedAt := record.approvedAt
        executionEnabled := some true
        finalityPassed := true
        expiresAt := some record.expiresAt
        sequencerEndpointReference := none
        archiveEndpointReference := none
        approvedBy := some "owner-cli"
        approvedAt := some record.approvedAt }
    onlyIf (record.paid = true) do
      forSome chain.paidFeePolicy fun paid => do
        let current ← require (fun store => store.activeFeePolicy chain.chainProfileId)
          "Base paid enablement requires the active Base fee policy"
        deactivateFeePolicy current.id
        insertFeePolicy (basePaidPolicy record current chain paid)

/-! ## Revoking and switching off -/

structure RevocationInput where
  id : String
  revokedAt : Time
  confirmationDigest : String
  expectedEnablementId : Option String
  deriving DecidableEq, Repr

/-- The row that `revokeEnablement` inserts. -/
def RevocationInput.row (input : RevocationInput) (chain : EnablementChain)
    (enablementId : String) : RevocationRow where
  id := input.id
  chain := chain
  enablementId := enablementId
  revokedAt := input.revokedAt
  confirmationDigest := input.confirmationDigest

/-- The active policy without paid mints. -/
def revokedPolicy (input : RevocationInput) (profileId : String) (activeFee : FeePolicyVersion) :
    FeePolicyVersion :=
  { activeFee with
    id := activeFee.id ++ ":revoked:" ++ input.id
    chainProfileId := profileId
    version := activeFee.version ++ "-paid-revoked"
    paidMintsEnabled := false
    active := true
    createdAt := input.revokedAt }

/-- The audit event of a revocation that switches its chain off. -/
def revokedAudit (input : RevocationInput) (profileId enablementId : String) : AuditRow where
  id := "enablement-revoked:" ++ input.id
  entityId := profileId
  priorState := "execution_enabled"
  newState := "execution_disabled"
  actor := "owner-cli"
  reason := "enablement " ++ enablementId ++ " revoked by the owner (D-062)"
  occurredAt := input.revokedAt

def revokeEnablement (chain : EnablementChain) (input : RevocationInput) :
    Script Error Store String := do
  refuse (fun _ => ¬ IsDigest input.confirmationDigest) "Revocation requires a confirmation digest"
  immediate do
    let latest ← require (fun store => store.latest chain) "NOTHING_TO_REVOKE"
    refuse (fun _ => ∃ expected ∈ input.expectedEnablementId, expected ≠ latest.id)
      "REVOCATION_RECORD_CHANGED"
    insertRevocation (input.row chain latest.id)
    let profile ← read fun store => store.profileOf chain
    forSome profile fun profile => do
      let activeFee ← read fun store => store.activeFeePolicy profile.id
      forSome activeFee fun activeFee =>
        onlyIf (activeFee.paidMintsEnabled = true) do
          deactivateFeePolicy activeFee.id
          insertFeePolicy (revokedPolicy input profile.id activeFee)
      onlyIf (profile.executionEnabled = true) do
        switchOff profile.id
        insertAudit (revokedAudit input profile.id latest.id)
    return latest.id

/-- Switch a chain off unless its newest enablement is in force.  The audit event of each chain
has a name of its own. -/
def disableIfNotEnabled (chain : EnablementChain) (auditName reason : String) (outside : Outside)
    (now : Time) : Script Error Store PUnit :=
  immediate do
    let profile ← read fun store => store.profileOf chain
    let latest ← read fun store => store.latest chain
    forSome profile fun profile =>
      onlyIf (profile.executionEnabled = true ∧
          ¬ ∃ row ∈ latest, row.approvedAt ≤ now ∧ now < row.expiresAt) do
        switchOff profile.id
        insertAudit
          { id := auditName ++ ":" ++ profile.id ++ ":" ++ outside.toISOString now
            entityId := profile.id
            priorState := "execution_enabled"
            newState := "execution_disabled"
            actor := "system"
            reason := reason
            occurredAt := now }

def disableRobinhoodIfNotEnabled : Outside → Time → Script Error Store PUnit :=
  disableIfNotEnabled .robinhood "robinhood-disabled" "Robinhood enablement expired or missing"

def disableBaseIfNotEnabled : Outside → Time → Script Error Store PUnit :=
  disableIfNotEnabled .base "base-disabled" "Base enablement expired or missing"

/-! ## New campaigns -/

/-- `validRobinhoodEnablement` of a stored row. -/
def ValidRobinhoodEnablement (now : Time) (row : EnablementRow) : Prop :=
  row.id.length ≠ 0 ∧ row.id.length ≤ 200 ∧ row.approvedBy = "owner-cli" ∧
    row.approvedAt ≤ now ∧ now < row.expiresAt ∧ row.approvedAt < row.expiresAt ∧
    CompleteEvidence .robinhood row.paidAllowed row.evidence

/-- `validBaseEnablement` of a stored row. -/
def ValidBaseEnablement (now : Time) (row : BaseEnablementRow) : Prop :=
  row.approvedBy = "owner-cli" ∧ row.freeAllowed = true ∧ row.approvedAt ≤ now ∧
    now < row.expiresAt ∧ CompleteEvidence .base row.paidAllowed row.evidence ∧
    IsDigest row.evidenceDigest ∧ row.strategyVersion ≠ "" ∧ row.feePolicyVersion ≠ "" ∧
    row.primaryEndpointReference ≠ row.fallbackEndpointReference ∧
    row.custodyMode = "local-personal-live"

instance (now : Time) (row : EnablementRow) : Decidable (ValidRobinhoodEnablement now row) := by
  unfold ValidRobinhoodEnablement
  infer_instance

instance (now : Time) (row : BaseEnablementRow) : Decidable (ValidBaseEnablement now row) := by
  unfold ValidBaseEnablement
  infer_instance

def assertRobinhoodLiveAllowed (kind : MintClass) (now : Time) : Script Error Store PUnit := do
  refuse (fun store => ¬ ∃ row ∈ store.latest .robinhood, ValidRobinhoodEnablement now row)
    (if kind = .paid then "ROBINHOOD_PAID_MINTS_DISABLED" else "ROBINHOOD_EXECUTION_DISABLED")
  refuse (fun store => kind = .paid ∧ ¬ ∃ row ∈ store.latest .robinhood, row.paidAllowed = true)
    "ROBINHOOD_PAID_MINTS_DISABLED"

def assertBaseLiveAllowed (kind : MintClass) (now : Time) : Script Error Store PUnit :=
  refuse (fun store => ¬ ∃ row ∈ store.latestBaseEnablement,
      ValidBaseEnablement now row ∧ (kind = .paid → row.paidAllowed = true))
    (if kind = .paid then "BASE_PAID_MINTS_DISABLED" else "BASE_EXECUTION_DISABLED")

/-- A campaign of one of the two chains as the store gets it; the checks that come before only
refuse. -/
structure NewCampaign where
  id : String
  chain : EnablementChain
  contract : String
  strategy : String
  mintPriceWei : Wei
  feePolicy : FeePolicy
  createdAt : Time
  deriving DecidableEq, Repr

/-- The policy that a campaign brings to a profile without one: `insertFeePolicyRow` of
`feePolicySeed`. -/
def seedPolicy (outside : Outside) (now : Time) (profileId : String) (policy : FeePolicy)
    (store : Store) : FeePolicyVersion :=
  let sequence := (store.feePolicies.filter fun row => row.chainProfileId = profileId).length
  let values := (policy.totalFeeBudgetWei.getD 0, policy.freeTotalSpendCapWei.getD 0,
    policy.configuredPriorityFeeWei, decide (policy.kind = .paid))
  { id := outside.feePolicyId profileId sequence values now
    chainProfileId := profileId
    version := outside.feePolicyVersion profileId sequence values now
    priorityFeeSemantics := .feeOnly
    maxTotalFeeWei := policy.totalFeeBudgetWei.getD 0
    freeMintTotalFeeCapWei := policy.freeTotalSpendCapWei.getD 0
    freeMintPriorityFeeComponentWei := policy.configuredPriorityFeeWei
    freeMintPriorityFeeMultiplier := 2
    paidMintsEnabled := decide (policy.kind = .paid)
    active := true
    createdAt := now
    zeroPriorityFeePolicy :=
      if policy.configuredPriorityFeeWei = 0 then .requiresPoResolution else .allowed }

def ensureFeePolicy (outside : Outside) (now : Time) (profileId : String) (policy : FeePolicy)
    (chain : EnablementChain) : Script Error Store PUnit := do
  onlyIf (policy.kind = .paid ∧ chain = .robinhood) (assertRobinhoodLiveAllowed .paid now)
  onlyIf (chain = .base) (assertBaseLiveAllowed policy.kind now)
  let existing ← read fun store => store.activeFeePolicy profileId
  forSome existing fun existing =>
    refuse (fun _ => policy.kind = .paid ∧ existing.paidMintsEnabled = false)
      "PAID_MINT_POLICY_REQUIRED"
  onlyIf (existing = none) do
    let seed ← read (seedPolicy outside now profileId policy)
    insertFeePolicy seed

/-- `ORDER BY id LIMIT 1`. -/
def firstId (ids : List String) : Option String :=
  ids.foldl (fun best id =>
    match best with
    | none => some id
    | some other => if id < other then some id else some other) none

def ensureContract (outside : Outside) (profileId contract : String) :
    Script Error Store String := do
  let existing ← read fun store => store.contracts.find? fun row =>
    row.chainProfileId = profileId ∧ toLowerCase row.address = toLowerCase contract
  let id := (existing.map ContractRow.id).getD
    (outside.contractId profileId (toLowerCase contract))
  onlyIf (existing = none) do
    refuse (fun store => ∃ old ∈ store.contracts, old.id = id)
      "UNIQUE constraint failed: contract.id"
    write fun store =>
      { store with
        contracts := store.contracts ++
          [{ id := id, chainProfileId := profileId, address := contract }] }
  return id

def ensureCollection (outside : Outside) (contractId strategy : String) :
    Script Error Store String := do
  let existing ← read fun store => firstId
    ((store.collections.filter fun row => row.contractId = contractId).map CollectionRow.id)
  let id := existing.getD (outside.collectionId contractId)
  onlyIf (existing = none) do
    refuse (fun store => ∃ old ∈ store.collections, old.id = id)
      "UNIQUE constraint failed: collection.id"
    write fun store =>
      { store with
        collections := store.collections ++
          [{ id := id, contractId := contractId, name := strategy }] }
  return id

def ensureDrop (outside : Outside) (collectionId strategy : String) (mintPriceWei : Wei) :
    Script Error Store String := do
  let existing ← read fun store => firstId
    ((store.drops.filter fun row => row.collectionId = collectionId ∧ row.strategy = strategy ∧
      row.mintPriceWei = mintPriceWei).map DropRow.id)
  let id := existing.getD (outside.dropId collectionId strategy mintPriceWei)
  onlyIf (existing = none) do
    refuse (fun store => ∃ old ∈ store.drops, old.id = id) "UNIQUE constraint failed: drop.id"
    write fun store =>
      { store with
        drops := store.drops ++
          [{ id := id, collectionId := collectionId, strategy := strategy,
             mintPriceWei := mintPriceWei }] }
  return id

/-- `ensureCampaignGraph`, with the drop that the campaign belongs to. -/
def ensureCampaignGraph (outside : Outside) (now : Time) (campaign : NewCampaign) :
    Script Error Store String := do
  let profile ← require (fun store => store.profileOf campaign.chain)
    "CANONICAL_CHAIN_PROFILE_REQUIRED"
  let contractId ← ensureContract outside profile.id campaign.contract
  let collectionId ← ensureCollection outside contractId campaign.strategy
  let dropId ← ensureDrop outside collectionId campaign.strategy campaign.mintPriceWei
  ensureFeePolicy outside now profile.id campaign.feePolicy campaign.chain
  return dropId

/-- The transaction of `createCampaign`: `persistCampaign` of a campaign that is not stored. -/
def createCampaign (outside : Outside) (now : Time) (campaign : NewCampaign) :
    Script Error Store PUnit :=
  immediate do
    let dropId ← ensureCampaignGraph outside now campaign
    refuse (fun store => ∃ old ∈ store.campaigns, old.id = campaign.id)
      "UNIQUE constraint failed: campaign.id"
    write fun store =>
      { store with
        campaigns := store.campaigns ++
          [{ id := campaign.id, dropId := dropId, createdAt := campaign.createdAt }] }

/-! ## Runs -/

inductive Call
  | enableRobinhood (record : RobinhoodEnablementInput) (chain : RobinhoodChainInput)
  | enableBase (record : BaseEnablementInput) (chain : BaseChainInput)
  | revokeEnablement (chain : EnablementChain) (input : RevocationInput)
  | disableRobinhoodIfNotEnabled
  | disableBaseIfNotEnabled
  | createCampaign (campaign : NewCampaign)
  deriving DecidableEq, Repr

/-- What a call does at an instant. -/
def Call.script (outside : Outside) (now : Time) : Call → Script Error Store PUnit
  | .enableRobinhood record chain => Enabling.enableRobinhood outside now record chain
  | .enableBase record chain => Enabling.enableBase outside now record chain
  | .revokeEnablement chain input => do
      let _ ← Enabling.revokeEnablement chain input
      return
  | .disableRobinhoodIfNotEnabled => Enabling.disableRobinhoodIfNotEnabled outside now
  | .disableBaseIfNotEnabled => Enabling.disableBaseIfNotEnabled outside now
  | .createCampaign campaign => Enabling.createCampaign outside now campaign

/-- A call and its instant, as a command of a machine whose commands always leave a state. -/
def step (outside : Outside) (call : Time × Call) (store : Store) : Except Error Store :=
  .ok (attempt (call.2.script outside call.1) store).2

end MintBot.Enabling
