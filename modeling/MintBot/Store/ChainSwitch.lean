import MintBot.Store.Policy

/-!
# Switching chains off

A chain profile carries one switch, `execution_enabled`.  The owner switches
Robinhood and Base off by revoking their enablement, the service does it when
the newest enablement is no longer valid, and every new evidence record for
Ethereum writes the switch of that chain.  Admission reads the switch, and so do
the triggers on receipts and settlements.
-/

namespace MintBot

open Fallible

/-- The chains whose enablement is a record of the owner. -/
inductive EnablementChain
  | base
  | robinhood
  deriving DecidableEq, Repr

def EnablementChain.chainId : EnablementChain → ChainId
  | .base => .base
  | .robinhood => .robinhood

/-- Set the switch of a chain profile. -/
def ChainProfile.switch (enabled : Bool) (profile : ChainProfile) : ChainProfile :=
  { profile with executionEnabled := enabled }

namespace Db

/-- `latestRobinhoodEnablement` and `latestBaseEnablement`: a revoked record
counts as none. -/
def latestEnablement (db : Db) : EnablementChain → Option Enablement
  | .base => db.baseEnablement
  | .robinhood => db.robinhoodEnablement

/-- The newest enablement of a chain is revoked. -/
def revoke (db : Db) : EnablementChain → Db
  | .base => { db with baseEnablement := none }
  | .robinhood => { db with robinhoodEnablement := none }

/-- Set the switch of a chain. -/
def setExecutionEnabled (db : Db) (chainId : ChainId) (enabled : Bool) : Db :=
  { db with
    chainProfiles := Table.update ChainProfile.chainId chainId (ChainProfile.switch enabled)
      db.chainProfiles }

/-- The active fee policy of a chain no longer allows paid mints. -/
def withoutPaidMints (db : Db) (chainId : ChainId) : Db :=
  { db with
    feePolicies := Table.update FeePolicyRow.chainProfileId chainId
      (fun row => { row with paidMintsEnabled := false }) db.feePolicies }

end Db

/-- `/^[0-9a-f]{64}$/`. -/
def IsDigest (text : String) : Prop :=
  text.length = 64 ∧ ∀ char ∈ text.toList,
    ('0' ≤ char ∧ char ≤ '9') ∨ ('a' ≤ char ∧ char ≤ 'f')

instance (text : String) : Decidable (IsDigest text) := by
  unfold IsDigest
  have := List.decidableBAll (fun char => ('0' ≤ char ∧ char ≤ '9') ∨ ('a' ≤ char ∧ char ≤ 'f'))
    text.toList
  infer_instance

/-- `revokeEnablement`, for a caller that names no expected record: the newest
enablement of the chain ends, paid mints leave its fee policy, and the chain is
switched off. -/
def revokeEnablement (db : Db) (chain : EnablementChain) (revokedAt : Time)
    (confirmationDigest : String) : Except Error Db := do
  refuse (¬ IsDigest confirmationDigest) "Revocation requires a confirmation digest"
  let latest ← require (db.latestEnablement chain) "NOTHING_TO_REVOKE"
  refuse (revokedAt < latest.approvedAt) "revocation must name the newest enablement of that chain"
  return ((db.revoke chain).withoutPaidMints chain.chainId).setExecutionEnabled chain.chainId false

/-- Switch a chain off unless its newest enablement is valid now. -/
def disableIfNotEnabled (db : Db) (chain : EnablementChain) (now : Time) : Db :=
  if validEnablement (db.latestEnablement chain) now ≠ none then db
  else db.setExecutionEnabled chain.chainId false

/-- `disableRobinhoodIfNotEnabled`. -/
def disableRobinhoodIfNotEnabled (db : Db) (now : Time) : Db :=
  disableIfNotEnabled db .robinhood now

/-- `disableBaseIfNotEnabled`. -/
def disableBaseIfNotEnabled (db : Db) (now : Time) : Db :=
  disableIfNotEnabled db .base now

/-! ## Chain evidence -/

/-- `chain_verification.status`. -/
inductive VerificationStatus
  | unverified
  | characterizationPending
  | verified
  | executionBlocked
  deriving DecidableEq, Repr

/-- A verification record, with the facts that its evidence text states. -/
structure ChainVerificationRecord where
  chainId : ChainId
  status : VerificationStatus
  checkedAt : Time
  executionEnabled : Option Bool
  finalityPassed : Bool
  expiresAt : Option Time
  sequencerEndpointReference : Option String
  archiveEndpointReference : Option String
  approvedBy : Option String
  approvedAt : Option Time
  deriving DecidableEq, Repr

/-- The chain may be marked as verified: the newest enablement of Base or
Robinhood was valid at the approval and has not run out. -/
def Db.MayVerify (db : Db) (now : Time) (record : ChainVerificationRecord) : Prop :=
  let covered := fun chain => ∃ enablement ∈ db.latestEnablement chain,
    ∃ approvedAt ∈ record.approvedAt,
      enablement.approvedAt ≤ approvedAt ∧ approvedAt < enablement.expiresAt ∧
        now < enablement.expiresAt
  match record.chainId with
  | .ethereum => True
  | .base => covered .base
  | .robinhood => covered .robinhood

instance (db : Db) (now : Time) (record : ChainVerificationRecord) :
    Decidable (db.MayVerify now record) := by
  unfold Db.MayVerify
  cases record.chainId <;> infer_instance

/-- The verification that counts after a record: the one checked last. -/
def ChainVerificationRecord.newest (record : ChainVerificationRecord)
    (stored : Option ChainVerification) : Option ChainVerification :=
  let made : ChainVerification :=
    { verified := decide (record.status = .verified)
      expiresAt := record.expiresAt
      checkedAt := record.checkedAt }
  match stored with
  | none => some made
  | some old => if record.checkedAt < old.checkedAt then some old else some made

/-- `recordChainVerification`: the record is stored and the switch of the chain
is written with it.  Unless the record names the switch, it stays as it is, and
a blocked chain is switched off. -/
def recordChainVerification (db : Db) (now : Time) (record : ChainVerificationRecord) :
    Except Error Db := do
  let profile ← require (db.profile record.chainId) "chain verification identity mismatch"
  refuse (record.chainId = .robinhood ∧ record.sequencerEndpointReference ≠
      some "https://sequencer.mainnet.chain.robinhood.com")
    "Robinhood sequencer reference is not the approved endpoint"
  refuse (record.chainId = .robinhood ∧
      ¬ ∃ reference ∈ record.archiveEndpointReference,
        "Rets/MINT_BOT_SECRETS.env".toList <+: reference.toList)
    "Robinhood archive endpoint must remain a Rets/MINT_BOT_SECRETS.env reference"
  refuse (record.status = .verified ∧
      (record.approvedBy.getD "" = "" ∨ record.approvedAt = none ∨ record.finalityPassed = false))
    "verified chain requires approved finality evidence"
  let executionEnabled := record.executionEnabled.getD
    (decide (record.status ≠ .executionBlocked) && profile.executionEnabled)
  refuse (record.status ≠ .verified ∧ executionEnabled = true)
    "execution can only remain enabled for a verified chain"
  refuse (record.status = .verified ∧ ¬ db.MayVerify now record)
    "Robinhood chain cannot be execution verified"
  return { db with
    chainProfiles := Table.update ChainProfile.chainId record.chainId
      (fun row =>
        { row with
          executionEnabled := executionEnabled
          verification := record.newest row.verification })
      db.chainProfiles }

/-- States of a chain evidence record as the backend names them. -/
inductive EvidenceStatus
  | pending
  | accepted
  | rejected
  deriving DecidableEq, Repr

structure ChainEvidenceRecord where
  chainId : ChainId
  status : EvidenceStatus
  executionEnabled : Bool
  finalityPassed : Bool
  checkedAt : Time
  expiresAt : Time
  endpointIdentity : String
  archiveEndpointIdentity : Option String
  acceptedAt : Option Time
  acceptedBy : Option String
  deriving DecidableEq, Repr

/-- `persistChainEvidence` for a record that is not stored yet.  Only a record
for Ethereum names the switch. -/
def persistChainEvidence (db : Db) (now : Time) (evidence : ChainEvidenceRecord) :
    Except Error Db := do
  let _ ← require (db.profile evidence.chainId) "CANONICAL_CHAIN_PROFILE_REQUIRED"
  refuse (evidence.chainId = .robinhood ∧ evidence.archiveEndpointIdentity.getD "" = "")
    "ROBINHOOD_ARCHIVE_REFERENCE_REQUIRED"
  recordChainVerification db now
    { chainId := evidence.chainId
      status :=
        match evidence.status with
        | .accepted => .verified
        | .rejected => .executionBlocked
        | .pending => .characterizationPending
      checkedAt := evidence.checkedAt
      executionEnabled :=
        if evidence.chainId = .ethereum then
          some (decide (evidence.status = .accepted) && evidence.executionEnabled)
        else none
      finalityPassed := evidence.finalityPassed
      expiresAt := some evidence.expiresAt
      sequencerEndpointReference :=
        if evidence.chainId = .robinhood then some evidence.endpointIdentity else none
      archiveEndpointReference :=
        if evidence.chainId = .robinhood then evidence.archiveEndpointIdentity
        else some evidence.endpointIdentity
      approvedBy := evidence.acceptedBy
      approvedAt := evidence.acceptedAt }

/-! ## What the switch is -/

namespace Db

/-- The database with every chain switched on. -/
def switchedOn (db : Db) : Db :=
  { db with chainProfiles := db.chainProfiles.map (ChainProfile.switch true) }

/-- The chain of an attempt is switched on. -/
def ChainOn (db : Db) (attempt : TransactionAttemptRow) : Prop :=
  ∃ profile ∈ db.attemptProfile attempt, profile.executionEnabled = true

instance (db : Db) (attempt : TransactionAttemptRow) : Decidable (db.ChainOn attempt) := by
  unfold ChainOn
  infer_instance

theorem profile_switchedOn (db : Db) (chainId : ChainId) :
    db.switchedOn.profile chainId = (db.profile chainId).map (ChainProfile.switch true) := by
  show Table.lookup ChainProfile.chainId chainId
    (db.chainProfiles.map (ChainProfile.switch true)) = _
  unfold profile Table.lookup
  rw [List.find?_map]
  rfl

theorem attemptProfile_switchedOn (db : Db) (attempt : TransactionAttemptRow) :
    db.switchedOn.attemptProfile attempt =
      (db.attemptProfile attempt).map (ChainProfile.switch true) := by
  show (db.intent attempt.transactionIntentId).bind (fun intent =>
    db.switchedOn.profile intent.walletId.chainProfileId) = _
  unfold attemptProfile
  cases db.intent attempt.transactionIntentId with
  | none => rfl
  | some intent => exact profile_switchedOn db intent.walletId.chainProfileId

/-- A stage is enabled finality when it is that with every chain switched on, and
the chain of the attempt is on. -/
theorem enabledFinality_iff (db : Db) (attempt : TransactionAttemptRow) (stage : FinalityStage) :
    db.EnabledFinality attempt stage ↔
      db.switchedOn.EnabledFinality attempt stage ∧ db.ChainOn attempt := by
  unfold EnabledFinality ChainOn
  rw [attemptProfile_switchedOn]
  cases db.attemptProfile attempt with
  | none => simp
  | some profile => simp [ChainProfile.switch, and_comm]

end Db

/-- Switching chains off and recording chain evidence leave everything that was
sent as it is. -/
structure SentKept (db db' : Db) : Prop where
  executions : db'.executions = db.executions
  reservations : db'.reservations = db.reservations
  attempts : db'.attempts = db.attempts
  receipts : db'.receipts = db.receipts
  reconciliations : db'.reconciliations = db.reconciliations

theorem revokeEnablement_effect {db db' : Db} {chain : EnablementChain} {revokedAt : Time}
    {confirmationDigest : String}
    (success : revokeEnablement db chain revokedAt confirmationDigest = .ok db') :
    SentKept db db' ∧ ∀ profile ∈ db'.chainProfiles, profile.chainId = chain.chainId →
      profile.executionEnabled = false := by
  simp only [revokeEnablement, bind_eq_ok, refuse_eq_ok, require_eq_ok, pure_eq_ok] at success
  obtain ⟨⟨⟩, -, latest, -, ⟨⟩, -, rfl⟩ := success
  refine ⟨by cases chain <;> exact ⟨rfl, rfl, rfl, rfl, rfl⟩, ?_⟩
  intro profile member onChain
  rcases Table.mem_update.mp member with ⟨-, other⟩ | ⟨row, -, -, rfl⟩
  · exact absurd onChain other
  · rfl

theorem disableIfNotEnabled_effect (db : Db) (chain : EnablementChain) (now : Time) :
    SentKept db (disableIfNotEnabled db chain now) := by
  unfold disableIfNotEnabled
  split <;> exact ⟨rfl, rfl, rfl, rfl, rfl⟩

theorem recordChainVerification_effect {db db' : Db} {now : Time}
    {record : ChainVerificationRecord}
    (success : recordChainVerification db now record = .ok db') : SentKept db db' := by
  simp only [recordChainVerification, bind_eq_ok, refuse_eq_ok, require_eq_ok, pure_eq_ok]
    at success
  obtain ⟨profile, -, ⟨⟩, -, ⟨⟩, -, ⟨⟩, -, ⟨⟩, -, ⟨⟩, -, rfl⟩ := success
  exact ⟨rfl, rfl, rfl, rfl, rfl⟩

end MintBot
