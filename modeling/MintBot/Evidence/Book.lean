import Mathlib.Data.String.Basic
import MintBot.Library.Machine
import MintBot.Library.Newest
import MintBot.Library.OrderedMap
import MintBot.Store.ChainSwitch

/-!
# Chain evidence in the canonical store

A decision on a piece of chain evidence is stored as a further row and one switch on the profile
of its chain.  A snapshot rebuilds the records from the rows: the row of a record that was
checked last gives its state, and of the records of Ethereum only the one with the decision
checked last can be switched on.
-/

namespace MintBot.Evidence

open Fallible

/-- What a record states of its chain. -/
structure EvidenceFacts where
  seaDropCompatible : Bool
  positiveLivePath : Bool
  archiveForkPassed : Bool
  negativeCases : List (String × Bool)
  reconciliationPassed : Bool
  finalityPassed : Bool
  endpointIdentity : String
  archiveEndpointIdentity : Option String
  strategyVersion : String
  expiresAt : String
  sourceBlock : Int
  sourceBlockHash : String
  deriving DecidableEq, Repr

structure ChainEvidenceRecord where
  id : String
  chainId : ChainId
  status : EvidenceStatus
  executionEnabled : Bool
  facts : EvidenceFacts
  checkedAt : String
  acceptedAt : Option String
  acceptedBy : Option String
  approvalProof : Option String
  deriving DecidableEq, Repr

/-- `evidence_json` of a row.  The rows that a snapshot's record left name that record; those of
an enablement name the enablement. -/
structure EvidenceJson where
  backendEvidenceId : Option String
  status : Option EvidenceStatus
  enablementId : Option String
  evidenceDigest : Option String
  facts : EvidenceFacts
  acceptedAt : Option String
  acceptedBy : Option String
  approvalProof : Option String
  deriving DecidableEq, Repr

structure ChainVerificationRow where
  id : String
  chainId : ChainId
  status : VerificationStatus
  evidence : EvidenceJson
  checkedAt : String
  approvedBy : Option String
  approvedAt : Option String
  deriving DecidableEq, Repr

/-- The rows in the order of their ids, the switch of each chain that has a profile, and the
newest enablement of a chain that is not revoked. -/
structure EvidenceStore where
  verifications : List ChainVerificationRow
  executionEnabled : ChainId → Option Bool
  latestEnablement : ChainId → Option String

/-- What the calls use from outside. -/
structure Outside where
  /-- `Date.parse` finds a time. -/
  dated : String → Bool
  /-- `canonicalId` of a record's id, state and check time. -/
  verificationId : String → EvidenceStatus → String → String
  /-- Nothing in the record looks like a secret. -/
  storable : ChainEvidenceRecord → Bool
  ethereumChainEvidenceRevokePhrase : String → String
  ownerTypedProof : String → String → String

/-! ## Snapshots -/

/-- The id of the record that a row belongs to. -/
def ChainVerificationRow.evidenceId (row : ChainVerificationRow) : String :=
  row.evidence.backendEvidenceId.getD row.id

/-- The row is a decision. -/
def ChainVerificationRow.Decided (row : ChainVerificationRow) : Prop :=
  row.status = .verified ∨ row.status = .executionBlocked

instance (row : ChainVerificationRow) : Decidable row.Decided := by
  unfold ChainVerificationRow.Decided
  infer_instance

/-- A row of the kind that decides which record of Ethereum may be on. -/
def ethereumDecision (row : ChainVerificationRow) : Bool :=
  row.chainId = .ethereum ∧ row.Decided

namespace EvidenceStore

def currentEthereumId (store : EvidenceStore) : Option String :=
  (Newest.newest ChainVerificationRow.checkedAt ethereumDecision store.verifications).map
    ChainVerificationRow.evidenceId

/-- The row does not count: another record or enablement took its place. -/
def superseded (store : EvidenceStore) (row : ChainVerificationRow) : Bool :=
  match row.chainId with
  | .ethereum => some row.evidenceId ≠ store.currentEthereumId
  | chainId =>
      row.evidence.enablementId ≠ none ∧
        row.evidence.enablementId ≠ store.latestEnablement chainId

/-- The first of two texts that is there, when one of them is not empty. -/
def either (first second : Option String) : Option String :=
  if first.getD "" = "" ∧ second.getD "" = "" then none else first.or second

/-- The record that a row gives. -/
def readRow (store : EvidenceStore) (row : ChainVerificationRow) : ChainEvidenceRecord where
  id := row.evidenceId
  chainId := row.chainId
  status :=
    match row.status with
    | .verified => .accepted
    | .executionBlocked => .rejected
    | _ => .pending
  executionEnabled :=
    store.executionEnabled row.chainId = some true ∧ store.superseded row = false
  facts :=
    { row.evidence.facts with
      positiveLivePath := row.evidence.facts.positiveLivePath ||
        (row.chainId = .base && row.evidence.enablementId.isSome)
      archiveEndpointIdentity :=
        row.evidence.facts.archiveEndpointIdentity.filter fun identity => identity ≠ "" }
  checkedAt := row.checkedAt
  acceptedAt := either row.evidence.acceptedAt row.approvedAt
  acceptedBy := either row.evidence.acceptedBy row.approvedBy
  approvalProof := either row.evidence.approvalProof row.evidence.evidenceDigest

/-- `readChainEvidence`: for each id the record of the row that comes last. -/
def readChainEvidence (store : EvidenceStore) : List ChainEvidenceRecord :=
  ((Newest.inOrder ChainVerificationRow.checkedAt store.verifications).foldl
    (fun latestById row => OrderedMap.set latestById row.evidenceId (store.readRow row))
    []).map Prod.snd

/-! ## Storing -/

/-- The row of a record. -/
def evidenceRow (outside : Outside) (evidence : ChainEvidenceRecord) : ChainVerificationRow where
  id := outside.verificationId evidence.id evidence.status evidence.checkedAt
  chainId := evidence.chainId
  status :=
    match evidence.status with
    | .accepted => .verified
    | .rejected => .executionBlocked
    | .pending => .characterizationPending
  evidence :=
    { backendEvidenceId := some evidence.id
      status := some evidence.status
      enablementId := none
      evidenceDigest := none
      facts := evidence.facts
      acceptedAt := evidence.acceptedAt
      acceptedBy := evidence.acceptedBy
      approvalProof := evidence.approvalProof }
  checkedAt := evidence.checkedAt
  approvedBy := evidence.acceptedBy.filter fun approver => approver ≠ ""
  approvedAt := evidence.acceptedAt.filter fun time => time ≠ ""

/-- `recordChainVerification`: the row is appended and the switch of the chain written with it.
Only a record of Ethereum names the switch.  The triggers on the profiles of the other chains
ask for an enablement; they are left out. -/
def recordChainVerification (outside : Outside) (evidence : ChainEvidenceRecord)
    (store : EvidenceStore) : Except Error EvidenceStore := do
  let row := evidenceRow outside evidence
  let enabled ← require (store.executionEnabled evidence.chainId)
    "chain verification identity mismatch"
  refuse (evidence.chainId = .robinhood ∧
      evidence.facts.endpointIdentity ≠ "https://sequencer.mainnet.chain.robinhood.com")
    "Robinhood sequencer reference is not the approved endpoint"
  refuse (evidence.chainId = .robinhood ∧
      ¬ ∃ reference ∈ evidence.facts.archiveEndpointIdentity,
        "Rets/MINT_BOT_SECRETS.env".toList <+: reference.toList)
    "Robinhood archive endpoint must remain a Rets/MINT_BOT_SECRETS.env reference"
  refuse (row.status = .verified ∧
      (row.approvedBy = none ∨ row.approvedAt = none ∨ evidence.facts.finalityPassed = false))
    "verified chain requires approved finality evidence"
  let executionEnabled :=
    if evidence.chainId = .ethereum then
      decide (evidence.status = .accepted) && evidence.executionEnabled
    else decide (row.status ≠ .executionBlocked) && enabled
  refuse (row.status ≠ .verified ∧ executionEnabled = true)
    "execution can only remain enabled for a verified chain"
  refuse (outside.storable evidence = false) "secret text must not be stored"
  refuse (row.status = .verified ∧ ¬ ∃ time ∈ row.approvedAt, outside.dated time = true)
    "verified chain requires approver, approval time, and substantive evidence"
  refuse (∃ stored ∈ store.verifications, stored.id = row.id)
    "UNIQUE constraint failed: chain_verification.id"
  return { store with
    verifications := store.verifications ++ [row]
    executionEnabled := fun chainId =>
      if chainId = evidence.chainId then some executionEnabled
      else store.executionEnabled chainId }

/-- A row of the record in its present state is stored. -/
def Stored (store : EvidenceStore) (evidence : ChainEvidenceRecord) : Prop :=
  ∃ row ∈ store.verifications, row.chainId = evidence.chainId ∧
    row.evidence.backendEvidenceId = some evidence.id ∧
    row.evidence.status = some evidence.status

instance (store : EvidenceStore) (evidence : ChainEvidenceRecord) :
    Decidable (store.Stored evidence) := by
  unfold Stored
  infer_instance

/-- `persistChainEvidence` for a record that the snapshot held as `prior`. -/
def persistChainEvidence (outside : Outside) (prior : Option ChainEvidenceRecord)
    (evidence : ChainEvidenceRecord) (store : EvidenceStore) : Except Error EvidenceStore := do
  if prior = some evidence then return store
  let _ ← require (store.executionEnabled evidence.chainId) "CANONICAL_CHAIN_PROFILE_REQUIRED"
  if store.Stored evidence then return store
  refuse (evidence.chainId = .robinhood ∧ evidence.facts.archiveEndpointIdentity.getD "" = "")
    "ROBINHOOD_ARCHIVE_REFERENCE_REQUIRED"
  recordChainVerification outside evidence store

/-- `persistDelta`, as far as it stores evidence: the records in list order. -/
def persistDelta (outside : Outside) (previous : List ChainEvidenceRecord) :
    List ChainEvidenceRecord → EvidenceStore → Except Error EvidenceStore
  | [], store => .ok store
  | evidence :: rest, store => do
      let next ← persistChainEvidence outside
        (previous.find? fun prior => prior.id = evidence.id) evidence store
      persistDelta outside previous rest next

/-- `store.transaction`, for a mutation of the evidence. -/
def transaction (outside : Outside)
    (mutate : List ChainEvidenceRecord → Except Error (List ChainEvidenceRecord))
    (store : EvidenceStore) : Except Error EvidenceStore := do
  let next ← mutate store.readChainEvidence
  persistDelta outside store.readChainEvidence next store

end EvidenceStore

/-! ## The calls -/

structure EvidenceApproval where
  verifierId : String
  proof : String
  acceptedAt : String
  deriving DecidableEq, Repr

section Calls

variable (outside : Outside)

/-- `recordChainEvidence`. -/
def recordChainEvidence (record : ChainEvidenceRecord) (store : EvidenceStore) :
    Except Error EvidenceStore := do
  refuse (outside.dated record.checkedAt = false ∨ outside.dated record.facts.expiresAt = false ∨
      record.facts.expiresAt ≤ record.checkedAt ∨ record.facts.sourceBlock < 0 ∨
      record.facts.sourceBlockHash = "" ∨ record.facts.endpointIdentity = "" ∨
      record.facts.strategyVersion = "")
    "INVALID_CHAIN_EVIDENCE"
  refuse (record.status ≠ .pending ∨ record.executionEnabled = true ∨
      record.acceptedAt.getD "" ≠ "" ∨ record.acceptedBy.getD "" ≠ "" ∨
      record.approvalProof.getD "" ≠ "")
    "EVIDENCE_MUST_BE_SUBMITTED_PENDING"
  store.transaction outside fun records => do
    refuse (∃ item ∈ records, item.id = record.id) "CHAIN_EVIDENCE_ALREADY_EXISTS"
    return records ++ [record]

/-- A record after the acceptance of another or itself. -/
def accepting (id : String) (approval : EvidenceApproval) (chainId : ChainId)
    (item : ChainEvidenceRecord) : ChainEvidenceRecord :=
  if item.id = id then
    { item with
      status := .accepted
      executionEnabled := true
      acceptedAt := some approval.acceptedAt
      acceptedBy := some approval.verifierId
      approvalProof := some approval.proof }
  else if chainId = .ethereum ∧ item.chainId = .ethereum then
    { item with executionEnabled := false }
  else item

/-- `acceptChainEvidence`, under an authority. -/
def acceptChainEvidence (verify : ChainEvidenceRecord → EvidenceApproval → Bool) (id : String)
    (approval : EvidenceApproval) (store : EvidenceStore) : Except Error EvidenceStore :=
  store.transaction outside fun records => do
    let record ← require (records.find? fun item => item.id = id) "CHAIN_EVIDENCE_NOT_FOUND"
    refuse (record.status ≠ .pending) "CHAIN_EVIDENCE_ALREADY_DECIDED"
    refuse (verify record approval = false) "EVIDENCE_APPROVAL_REJECTED"
    return records.map (accepting id approval record.chainId)

/-- A record of Ethereum that is on. -/
def isActive (item : ChainEvidenceRecord) : Bool :=
  item.chainId = .ethereum ∧ item.status = .accepted ∧ item.executionEnabled = true

/-- A record after a revocation. -/
def switchedOff (item : ChainEvidenceRecord) : ChainEvidenceRecord :=
  if item.chainId = .ethereum then { item with executionEnabled := false } else item

/-- `PERMANENT_ENABLEMENT_EXPIRY`. -/
def permanentEnablementExpiry : String := "9999-12-31T23:59:59.999Z"

/-- The record that a revocation appends. -/
def revocation (active : ChainEvidenceRecord) (phrase at_ id : String) : ChainEvidenceRecord :=
  { active with
    id := id
    status := .rejected
    executionEnabled := false
    facts := { active.facts with expiresAt := permanentEnablementExpiry }
    checkedAt := at_
    acceptedAt := some at_
    acceptedBy := some "owner-cli"
    approvalProof := some (outside.ownerTypedProof phrase id) }

/-- `revokeEthereumChainEvidence` at a clock reading, with the id that is drawn for the
decision. -/
def revokeEthereumChainEvidence (expectedId phrase at_ id : String) (store : EvidenceStore) :
    Except Error EvidenceStore := do
  refuse (phrase ≠ outside.ethereumChainEvidenceRevokePhrase expectedId)
    "CONFIRMATION_PHRASE_MISMATCH"
  store.transaction outside fun records => do
    let active ← require (records.reverse.find? isActive) "ETHEREUM_CHAIN_EVIDENCE_CHANGED"
    refuse (active.id ≠ expectedId) "ETHEREUM_CHAIN_EVIDENCE_CHANGED"
    refuse (at_ < active.checkedAt) "ETHEREUM_CHAIN_REVOCATION_CLOCK_INVALID"
    return records.map switchedOff ++ [revocation outside active phrase at_ id]

/-- `ensureEthereumChainProfile`. -/
def ensureEthereumChainProfile (store : EvidenceStore) : EvidenceStore :=
  if store.executionEnabled .ethereum = none then
    { store with
      executionEnabled := fun chainId =>
        if chainId = .ethereum then some false else store.executionEnabled chainId }
  else store

inductive Call
  | ensureEthereumChainProfile
  | recordChainEvidence (record : ChainEvidenceRecord)
  | acceptChainEvidence (verify : ChainEvidenceRecord → EvidenceApproval → Bool) (id : String)
      (approval : EvidenceApproval)
  | revokeEthereumChainEvidence (expectedId phrase at_ id : String)

def step : Call → EvidenceStore → Except Error EvidenceStore
  | .ensureEthereumChainProfile, store => .ok (ensureEthereumChainProfile store)
  | .recordChainEvidence record, store => recordChainEvidence outside record store
  | .acceptChainEvidence verify id approval, store =>
      acceptChainEvidence outside verify id approval store
  | .revokeEthereumChainEvidence expectedId phrase at_ id, store =>
      revokeEthereumChainEvidence outside expectedId phrase at_ id store

end Calls

end MintBot.Evidence
