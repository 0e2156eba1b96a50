import MintBot.Library.Script
import MintBot.Store.ChainSwitch

/-!
# The tables of the owner's enablements

The owner's decisions about Base and Robinhood are rows that never change: an enablement, and a
revocation that ends it.  Two more tables follow them.  The profile of a chain carries its switch,
and the active version of its fee policy says whether paid mints are allowed.  This module has the
rows, and the statements that write them with the constraints and triggers of the migrated
database.
-/

namespace MintBot.Enabling

open Script

/-- `'9999-12-31T23:59:59.999Z'`: until the owner revokes it. -/
def permanentEnablementExpiry : Time := 253402300799999

/-- `julianday` of an ISO text.  It reads those with four digits for the year. -/
def julianday (instant : Time) : Option Time :=
  if -62167219200000 ≤ instant ∧ instant ≤ permanentEnablementExpiry then some instant else none

/-! ## Rows -/

/-- The columns that the two enablement tables share, in the form of `robinhood_enablement`. -/
structure EnablementRow where
  id : String
  approvedBy : String
  approvedAt : Time
  expiresAt : Time
  paidAllowed : Bool
  evidence : List (String × Bool)
  confirmationDigest : String
  createdAt : Time
  deriving DecidableEq, Repr

structure BaseEnablementRow extends EnablementRow where
  freeAllowed : Bool
  evidenceDigest : String
  strategyVersion : String
  feePolicyVersion : String
  primaryEndpointReference : String
  fallbackEndpointReference : String
  custodyMode : String
  deriving DecidableEq, Repr

/-- `chain_enablement_revocation`. -/
structure RevocationRow where
  id : String
  chain : EnablementChain
  enablementId : String
  revokedAt : Time
  confirmationDigest : String
  deriving DecidableEq, Repr

/-- `chain_profile`; of the evidence text, whether finality passed. -/
structure ChainProfileRow where
  id : String
  chainId : ChainId
  verificationStatus : VerificationStatus
  finalityPassed : Bool
  verificationApprovedBy : Option String
  verificationApprovedAt : Option Time
  executionEnabled : Bool
  deriving DecidableEq, Repr

structure VerificationRow extends ChainVerificationRecord where
  id : String
  chainProfileId : String
  deriving DecidableEq, Repr

inductive PriorityFeeSemantics
  | ordering
  | feeOnly
  deriving DecidableEq, Repr

inductive ZeroPriorityFeePolicy
  | requiresPoResolution
  | blocked
  | allowed
  deriving DecidableEq, Repr

/-- A row of `fee_policy`. -/
structure FeePolicyVersion where
  id : String
  chainProfileId : String
  version : String
  priorityFeeSemantics : PriorityFeeSemantics
  maxTotalFeeWei : Wei
  freeMintTotalFeeCapWei : Wei
  freeMintPriorityFeeComponentWei : Wei
  freeMintPriorityFeeMultiplier : Int
  paidMintsEnabled : Bool
  active : Bool
  createdAt : Time
  zeroPriorityFeePolicy : ZeroPriorityFeePolicy
  deriving DecidableEq, Repr

/-- An `audit_event` about a chain profile. -/
structure AuditRow where
  id : String
  entityId : String
  priorState : String
  newState : String
  actor : String
  reason : String
  occurredAt : Time
  deriving DecidableEq, Repr

structure ContractRow where
  id : String
  chainProfileId : String
  address : String
  deriving DecidableEq, Repr

structure CollectionRow where
  id : String
  contractId : String
  name : String
  deriving DecidableEq, Repr

structure DropRow where
  id : String
  collectionId : String
  strategy : String
  mintPriceWei : Wei
  deriving DecidableEq, Repr

structure StoredCampaign where
  id : String
  dropId : String
  createdAt : Time
  deriving DecidableEq, Repr

/-- The tables, each with its rows in the order of their row ids. -/
structure Store where
  robinhoodEnablements : List EnablementRow
  baseEnablements : List BaseEnablementRow
  revocations : List RevocationRow
  profiles : List ChainProfileRow
  verifications : List VerificationRow
  feePolicies : List FeePolicyVersion
  audits : List AuditRow
  contracts : List ContractRow
  collections : List CollectionRow
  drops : List DropRow
  campaigns : List StoredCampaign
  deriving DecidableEq, Repr

/-- Names that are digests of what they are for, the text of an instant, and what `safeText`
refuses. -/
structure Outside where
  toISOString : Time → String
  secretLike : String → Bool
  contractId : String → String → String
  collectionId : String → String
  dropId : String → String → Wei → String
  /-- The id of a policy that a campaign brings: of its profile, the number of the profile's
  policies, the values and the instant. -/
  feePolicyId : String → Nat → Wei × Wei × Wei × Bool → Time → String
  feePolicyVersion : String → Nat → Wei × Wei × Wei × Bool → Time → String

namespace Store

def enablements (store : Store) : EnablementChain → List EnablementRow
  | .robinhood => store.robinhoodEnablements
  | .base => store.baseEnablements.map BaseEnablementRow.toEnablementRow

/-- `newestRobinhoodEnablementRow` and the shared columns of `newestBaseEnablementRow`. -/
def newest (store : Store) (chain : EnablementChain) : Option EnablementRow :=
  (store.enablements chain).getLast?

/-- `isRevoked`. -/
def IsRevoked (store : Store) (enablementId : String) : Prop :=
  ∃ revocation ∈ store.revocations, revocation.enablementId = enablementId

instance (store : Store) (enablementId : String) : Decidable (store.IsRevoked enablementId) := by
  unfold IsRevoked
  infer_instance

/-- `latestRobinhoodEnablement`, and the shared columns of `latestBaseEnablement`. -/
def latest (store : Store) (chain : EnablementChain) : Option EnablementRow :=
  (store.newest chain).filter fun row => ¬ store.IsRevoked row.id

def latestBaseEnablement (store : Store) : Option BaseEnablementRow :=
  store.baseEnablements.getLast?.filter fun row => ¬ store.IsRevoked row.id

/-- The profile of a chain. -/
def profileOf (store : Store) (chain : EnablementChain) : Option ChainProfileRow :=
  Table.lookup ChainProfileRow.chainId chain.chainId store.profiles

end Store

/-- The active policies of a profile. -/
def activeOf (profileId : String) (policies : List FeePolicyVersion) : List FeePolicyVersion :=
  policies.filter fun policy => policy.active = true ∧ policy.chainProfileId = profileId

/-- `SELECT … WHERE chain_profile_id = ? AND active = 1 ORDER BY rowid DESC LIMIT 1`. -/
def Store.activeFeePolicy (store : Store) (profileId : String) : Option FeePolicyVersion :=
  (activeOf profileId store.feePolicies).getLast?

/-! ## Evidence of an enablement -/

/-- The steps that every enablement of a chain needs. -/
def evidenceSteps : EnablementChain → List String
  | .robinhood => ["E1", "E2", "E3", "E4", "E5", "E6", "E7"]
  | .base =>
      ["reviewedCode", "forkRehearsal", "finality", "endpointAgreement", "feeObservation",
        "liveSimulation", "custodyReadiness"]

def requiredSteps (chain : EnablementChain) (paid : Bool) : List String :=
  evidenceSteps chain ++ if paid then ["paidRehearsal", "paidPolicyApproved"] else []

/-- The evidence has exactly the required steps, each true. -/
def CompleteEvidence (chain : EnablementChain) (paid : Bool) (evidence : List (String × Bool)) :
    Prop :=
  evidence.length = (requiredSteps chain paid).length ∧
    ∀ step ∈ requiredSteps chain paid, (step, true) ∈ evidence

instance (chain : EnablementChain) (paid : Bool) (evidence : List (String × Bool)) :
    Decidable (CompleteEvidence chain paid evidence) := by
  unfold CompleteEvidence
  infer_instance

/-- What `robinhood_enablement_complete` and `base_enablement_complete` ask of a new row. -/
def CompleteRow (chain : EnablementChain) (row : EnablementRow) : Prop :=
  julianday row.approvedAt ≠ none ∧ row.expiresAt = permanentEnablementExpiry ∧
    CompleteEvidence chain row.paidAllowed row.evidence

instance (chain : EnablementChain) (row : EnablementRow) : Decidable (CompleteRow chain row) := by
  unfold CompleteRow
  infer_instance

/-! ## Inserting enablements and revocations -/

def insertRobinhoodEnablement (row : EnablementRow) : Script Error Store PUnit := do
  refuse (fun store => ∃ old ∈ store.robinhoodEnablements, row.approvedAt < old.approvedAt)
    "Robinhood enablement record must be newer than the previous one"
  refuse (fun _ => ¬ CompleteRow .robinhood row) "Robinhood enablement record is incomplete"
  refuse (fun _ => ¬ IsDigest row.confirmationDigest) "CHECK constraint failed"
  refuse (fun store => ∃ old ∈ store.robinhoodEnablements, old.id = row.id)
    "UNIQUE constraint failed: robinhood_enablement.id"
  write fun store => { store with robinhoodEnablements := store.robinhoodEnablements ++ [row] }

def insertBaseEnablement (row : BaseEnablementRow) : Script Error Store PUnit := do
  refuse (fun store => ∃ old ∈ store.baseEnablements, row.approvedAt < old.approvedAt)
    "Base enablement record must be newer than the previous one"
  refuse (fun _ => ¬ CompleteRow .base row.toEnablementRow ∨
      row.primaryEndpointReference = row.fallbackEndpointReference ∨
      row.strategyVersion = "" ∨ row.feePolicyVersion = "")
    "Base enablement record is incomplete"
  refuse (fun _ => ¬ IsDigest row.evidenceDigest ∨ ¬ IsDigest row.confirmationDigest)
    "CHECK constraint failed"
  refuse (fun store => ∃ old ∈ store.baseEnablements, old.id = row.id)
    "UNIQUE constraint failed: base_enablement.id"
  write fun store => { store with baseEnablements := store.baseEnablements ++ [row] }

/-- The revocation names the newest enablement of its chain, and is not before it. -/
def NamesNewest (row : RevocationRow) (store : Store) : Prop :=
  ∃ newest ∈ store.newest row.chain, newest.id = row.enablementId ∧
    newest.approvedAt ≤ row.revokedAt

instance (row : RevocationRow) (store : Store) : Decidable (NamesNewest row store) := by
  unfold NamesNewest
  infer_instance

/-- An insert under `chain_enablement_revocation_valid`.  Its second condition reads the
revocations of both chains. -/
def insertRevocation (row : RevocationRow) : Script Error Store PUnit := do
  refuse (fun store => julianday row.revokedAt = none ∨ store.IsRevoked row.enablementId ∨
      ¬ NamesNewest row store)
    "revocation must name the newest enablement of that chain"
  refuse (fun _ => ¬ IsDigest row.confirmationDigest) "CHECK constraint failed"
  refuse (fun store => ∃ old ∈ store.revocations, old.id = row.id)
    "UNIQUE constraint failed: chain_enablement_revocation.id"
  write fun store => { store with revocations := store.revocations ++ [row] }

/-! ## Fee policies, audit events and the profile -/

/-- The `CHECK` constraints of `fee_policy`: amounts are texts of digits. -/
def FeePolicyVersion.Checked (row : FeePolicyVersion) : Prop :=
  0 ≤ row.maxTotalFeeWei ∧ 0 ≤ row.freeMintTotalFeeCapWei ∧
    0 ≤ row.freeMintPriorityFeeComponentWei ∧ 0 ≤ row.freeMintPriorityFeeMultiplier ∧
    row.freeMintPriorityFeeMultiplier ≤ 2

instance (row : FeePolicyVersion) : Decidable row.Checked := by
  unfold FeePolicyVersion.Checked
  infer_instance

/-- The index `idx_fee_policy_one_active` keeps one active policy of a profile. -/
def insertFeePolicy (row : FeePolicyVersion) : Script Error Store PUnit := do
  refuse (fun _ => ¬ row.Checked) "CHECK constraint failed"
  refuse (fun store => ∃ old ∈ store.feePolicies, old.id = row.id)
    "UNIQUE constraint failed: fee_policy.id"
  refuse (fun store => ∃ old ∈ store.feePolicies,
      old.chainProfileId = row.chainProfileId ∧ old.version = row.version)
    "UNIQUE constraint failed: fee_policy.chain_profile_id, fee_policy.version"
  refuse (fun store => row.active = true ∧ activeOf row.chainProfileId store.feePolicies ≠ [])
    "UNIQUE constraint failed: fee_policy.chain_profile_id"
  write fun store => { store with feePolicies := store.feePolicies ++ [row] }

/-- `UPDATE fee_policy SET active = 0 WHERE id = ?`. -/
def deactivateFeePolicy (id : String) : Script Error Store PUnit :=
  write fun store =>
    { store with
      feePolicies := Table.update FeePolicyVersion.id id (fun row => { row with active := false })
        store.feePolicies }

/-- Under `audit_entity_reference_guard`. -/
def insertAudit (row : AuditRow) : Script Error Store PUnit := do
  refuse (fun store => ∀ profile ∈ store.profiles, profile.id ≠ row.entityId)
    "audit event entity does not exist"
  refuse (fun store => ∃ old ∈ store.audits, old.id = row.id)
    "UNIQUE constraint failed: audit_event.id"
  write fun store => { store with audits := store.audits ++ [row] }

/-- `UPDATE chain_profile SET execution_enabled = 0 WHERE id = ?`.  Every guard of the table only
looks at profiles that are on. -/
def switchOff (profileId : String) : Script Error Store PUnit :=
  write fun store =>
    { store with
      profiles := Table.update ChainProfileRow.id profileId
        (fun row => { row with executionEnabled := false }) store.profiles }

/-- The newest enablement of a chain covers an approval: it was made before it, has not run out,
and is not revoked. -/
def Covers (now : Time) (chain : EnablementChain) (approvedAt : Option Time) (store : Store) :
    Prop :=
  ∃ row ∈ store.newest chain, ∃ since ∈ julianday row.approvedAt,
    ∃ approval ∈ approvedAt.bind julianday,
      since ≤ approval ∧ approval < row.expiresAt ∧ now < row.expiresAt ∧ ¬ store.IsRevoked row.id

instance (now : Time) (chain : EnablementChain) (approvedAt : Option Time) (store : Store) :
    Decidable (Covers now chain approvedAt store) := by
  unfold Covers
  infer_instance

/-- The chain needs no enablement, or has one that covers the approval. -/
def MayRun (now : Time) (chainId : ChainId) (approvedAt : Option Time) (store : Store) : Prop :=
  match chainId with
  | .ethereum => True
  | .base => Covers now .base approvedAt store
  | .robinhood => Covers now .robinhood approvedAt store

instance (now : Time) (chainId : ChainId) (approvedAt : Option Time) (store : Store) :
    Decidable (MayRun now chainId approvedAt store) := by
  unfold MayRun
  cases chainId <;> infer_instance

/-- The outcome of a verification, written to a profile under the guards of the table. -/
def updateProfile (now : Time) (profileId : String) (chainId : ChainId)
    (record : ChainVerificationRecord) (executionEnabled : Bool) : Script Error Store PUnit := do
  refuse (fun store => record.status = .verified ∧ ¬ MayRun now chainId record.approvedAt store)
    "Robinhood chain cannot be execution verified"
  refuse (fun store => executionEnabled = true ∧
      (record.status ≠ .verified ∨ ¬ MayRun now chainId record.approvedAt store))
    "execution requires verified non-Robinhood chain"
  refuse (fun _ => executionEnabled = true ∧
      (record.approvedBy.getD "" = "" ∨ record.approvedAt.bind julianday = none))
    "execution requires chain approval evidence"
  refuse (fun _ => executionEnabled = true ∧ record.finalityPassed = false)
    "enabled chain requires substantive finality evidence"
  write fun store =>
    { store with
      profiles := Table.update ChainProfileRow.id profileId
        (fun row =>
          { row with
            verificationStatus := record.status
            finalityPassed := record.finalityPassed
            verificationApprovedBy := record.approvedBy
            verificationApprovedAt := record.approvedAt
            executionEnabled := executionEnabled }) store.profiles }

def insertVerification (row : VerificationRow) : Script Error Store PUnit := do
  refuse (fun _ => row.status = .verified ∧
      (row.approvedBy.getD "" = "" ∨ row.approvedAt.bind julianday = none))
    "verified chain requires approval evidence"
  refuse (fun _ => row.status = .verified ∧ row.finalityPassed = false)
    "verified chain requires substantive finality evidence"
  refuse (fun store => ∃ old ∈ store.verifications, old.id = row.id)
    "UNIQUE constraint failed: chain_verification.id"
  write fun store => { store with verifications := store.verifications ++ [row] }

/-- `verification_status` as text. -/
def statusText : VerificationStatus → String
  | .unverified => "unverified"
  | .characterizationPending => "characterization_pending"
  | .verified => "verified"
  | .executionBlocked => "execution_blocked"

def safeText (outside : Outside) (value : Option String) (label : String) :
    Script Error Store PUnit :=
  refuse (fun _ => ∃ text ∈ value, outside.secretLike text = true)
    (label ++ " contains secret-like material")

/-- `recordChainVerification`. -/
def recordChainVerification (outside : Outside) (now : Time) (record : VerificationRow) :
    Script Error Store PUnit := do
  let profile ← require
    (fun store => Table.lookup ChainProfileRow.id record.chainProfileId store.profiles)
    "chain verification identity mismatch"
  refuse (fun _ => profile.chainId ≠ record.chainId) "chain verification identity mismatch"
  refuse (fun _ => record.chainId = .robinhood ∧ record.sequencerEndpointReference ≠
      some "https://sequencer.mainnet.chain.robinhood.com")
    "Robinhood sequencer reference is not the approved endpoint"
  refuse (fun _ => record.chainId = .robinhood ∧
      ¬ ∃ reference ∈ record.archiveEndpointReference,
        "Rets/MINT_BOT_SECRETS.env".toList <+: reference.toList)
    "Robinhood archive endpoint must remain a Rets/MINT_BOT_SECRETS.env reference"
  refuse (fun _ => record.status = .verified ∧
      (record.approvedBy.getD "" = "" ∨ record.approvedAt = none ∨ record.finalityPassed = false))
    "verified chain requires approved finality evidence"
  immediate do
    let executionEnabled := record.executionEnabled.getD
      (decide (record.status ≠ .executionBlocked) && profile.executionEnabled)
    refuse (fun _ => record.status ≠ .verified ∧ executionEnabled = true)
      "execution can only remain enabled for a verified chain"
    safeText outside record.approvedBy "verification approver"
    safeText outside record.sequencerEndpointReference "sequencer endpoint"
    safeText outside record.archiveEndpointReference "archive endpoint"
    insertVerification record
    updateProfile now record.chainProfileId profile.chainId record.toChainVerificationRecord
      executionEnabled
    insertAudit
      { id := record.id ++ ":audit"
        entityId := record.chainProfileId
        priorState := statusText profile.verificationStatus
        newState := statusText record.status
        actor := record.approvedBy.getD "database"
        reason := "chain verification evidence recorded"
        occurredAt := record.checkedAt }

end MintBot.Enabling
