import MintBot.Fire.Conflict
import MintBot.LiveRequest.Request
import MintBot.Library.OrderedMap

/-!
# What an automation goes by

The automation reads events whose data may have any shape, and campaigns that were prepared
for it.  An authority is a stored event that names a campaign and the digest of its inputs.
Before a fire the automation reads the events and the kill switch once more and compares them
with the campaign.

Contracts are compared as the events spell them.
-/

namespace MintBot.Replication

open Fallible

/-! ## Events -/

/-- The value of a score: a number, or a value of another type and what `Number` makes of it. -/
inductive ScoreValue
  | number (value : Rat)
  | other (asNumber : Option Rat)
  deriving DecidableEq

def ScoreValue.asNumber : ScoreValue → Option Rat
  | .number value => some value
  | .other value => value

/-- The fields of an event's data that the automation reads or writes. -/
structure EventData where
  chainId : Option Int := none
  contract : Option String := none
  wallet : Option String := none
  score : Option ScoreValue := none
  /-- `blocked === true`. -/
  blocked : Bool := false
  /-- The instant that the text of the field stands for. -/
  expiresAt : Option Time := none
  policyVersion : Option String := none
  campaignId : Option String := none
  campaignDigest : Option String := none
  sourceEventId : Option String := none
  sourceTxHash : Option String := none
  sourceWallet : Option String := none
  scoreEventId : Option String := none
  maxFeeGwei : Option Rat := none
  mintPriceWei : Option String := none
  wallets : Option (List String) := none
  requestId : Option String := none
  authorityEventId : Option String := none
  deriving DecidableEq

structure EventRecord where
  id : String
  type : String
  /-- The instant that the text of the field stands for. -/
  instant : Option Time
  data : EventData
  deriving DecidableEq

namespace EventRecord

def isOpportunity (event : EventRecord) : Bool :=
  "opportunity_".toList.isPrefixOf event.type.toList

/-- `Number(event.data.score)`, where it is finite. -/
def scoreNumber (event : EventRecord) : Option Rat :=
  event.data.score.bind ScoreValue.asNumber

end EventRecord

def policyVersion : String := "free-watched-v1"

def chainText : Option Int → String
  | some chainId => toString chainId
  | none => "undefined"

/-- The id of the claim of a contract. -/
def claimKey (chainId : Option Int) (contract : String) : String :=
  "replication_claim:" ++ chainText chainId ++ ":" ++ contract

/-! ## Campaigns -/

def chainNumber : ChainId → Int
  | .ethereum => 1
  | .base => 8453
  | .robinhood => 4663

structure AutomationCampaign extends Campaign where
  contract : String
  strategy : String
  custodyPolicy : Option String := none
  /-- The status of its chain verification is `verified`. -/
  chainVerified : Bool := false
  deriving DecidableEq

structure Drop where
  chainId : ChainId
  nftContract : String
  mintPrice : Wei
  strategyName : String
  deriving DecidableEq

inductive ReplicationVerdict
  | replicable
  | notReplicable
  deriving DecidableEq

/-- A watched mint that was looked up on its chain. -/
structure QualifiedSource where
  hash : String
  sender : String
  drop : Drop
  verdict : ReplicationVerdict
  deriving DecidableEq

structure Prepared where
  campaign : AutomationCampaign
  wallets : List String
  maxFeeGwei : Rat
  deriving DecidableEq

/-! ## The gate -/

inductive AutomationBlocker
  | scoreBelowThreshold
  | watchedWalletMintRequired
  | replicationNotQualified
  | simulationFailed
  | chainNotVerified
  | spendCapNotAvailable
  | killSwitchEngaged
  | operatorApprovalRequired
  | unattendedEvidenceRequired
  deriving DecidableEq

def AutomationBlocker.text : AutomationBlocker → String
  | .scoreBelowThreshold => "SCORE_BELOW_THRESHOLD"
  | .watchedWalletMintRequired => "WATCHED_WALLET_MINT_REQUIRED"
  | .replicationNotQualified => "REPLICATION_NOT_QUALIFIED"
  | .simulationFailed => "SIMULATION_FAILED"
  | .chainNotVerified => "CHAIN_NOT_VERIFIED"
  | .spendCapNotAvailable => "SPEND_CAP_NOT_AVAILABLE"
  | .killSwitchEngaged => "KILL_SWITCH_ENGAGED"
  | .operatorApprovalRequired => "OPERATOR_APPROVAL_REQUIRED"
  | .unattendedEvidenceRequired => "UNATTENDED_EVIDENCE_REQUIRED"

structure AutomationGateInput where
  score : Option Rat
  replicationVerdict : ReplicationVerdict
  simulationPassed : Bool
  chainVerified : Bool
  spendWithinCaps : Bool
  killSwitchClear : Bool
  operatorApproved : Bool
  mintPriceWei : Option Wei := none
  watchedWalletMintVerified : Option Bool := none
  unattendedReady : Option Bool := none

/-- A finite score between the threshold and 100. -/
def inScoreRange : Option Rat → Bool
  | some score => 70 ≤ score && score ≤ 100
  | none => false

/-- The blockers of a mint, in the order they are reported; without any it is allowed. -/
def evaluateQualifiedAutomationGate (input : AutomationGateInput) : List AutomationBlocker :=
  let blockIf (blocked : Bool) (blocker : AutomationBlocker) : List AutomationBlocker :=
    if blocked then [blocker] else []
  let autonomous := input.mintPriceWei = some 0 ∧ input.operatorApproved = false
  blockIf (!inScoreRange input.score) .scoreBelowThreshold ++
    blockIf (input.replicationVerdict ≠ .replicable) .replicationNotQualified ++
    blockIf (!input.simulationPassed) .simulationFailed ++
    blockIf (!input.chainVerified) .chainNotVerified ++
    blockIf (!input.spendWithinCaps) .spendCapNotAvailable ++
    blockIf (!input.killSwitchClear) .killSwitchEngaged ++
    if autonomous then
      blockIf (input.watchedWalletMintVerified ≠ some true) .watchedWalletMintRequired ++
        blockIf (input.unattendedReady ≠ some true) .unattendedEvidenceRequired
    else blockIf (!input.operatorApproved) .operatorApprovalRequired

/-! ## The store -/

/-- The events in the order a snapshot lists them, and what else is read with them. -/
structure AutomationStore where
  events : List EventRecord := []
  /-- The kill switch file exists, or the stored flag is set. -/
  killSwitchOn : Bool := false
  clock : Time := 0
  /-- The ids that campaigns were given. -/
  campaignIds : List CampaignId := []
  deriving DecidableEq

namespace AutomationStore

/-- A transaction adds an event, which snapshots list at the place of its instant. -/
def push (store : AutomationStore) (place : Nat) (event : EventRecord) : AutomationStore :=
  { store with events := store.events.take place ++ event :: store.events.drop place }

def knows (store : AutomationStore) (eventId : String) : Bool :=
  store.events.any fun event => event.id = eventId

/-- The last opportunity event for the contract of a campaign. -/
def newestScore (store : AutomationStore) (campaign : AutomationCampaign) : Option EventRecord :=
  store.events.reverse.find? fun event =>
    event.isOpportunity && event.data.contract = some (toLowerCase campaign.contract) &&
      event.data.chainId = some (chainNumber campaign.chainId)

end AutomationStore

/-! ## The authority of a fire -/

/-- The hash of the inputs of a campaign. -/
abbrev CampaignInputDigest := AutomationCampaign → String

def thrown (message : String) : Thrown := { message := message }

/-- The readings of `assertReady` on one snapshot, with the source event and the wallets that
it looks up again. -/
def checkAuthority (campaignInputDigest : CampaignInputDigest) (store : AutomationStore)
    (eventId : String) (campaign : AutomationCampaign) :
    Except Thrown (EventRecord × List String) := do
  let event ← require
    (store.events.find? fun event => event.id = eventId ∧ event.type = "replication_prepared")
    (thrown "AUTOMATION_AUTHORITY_INVALID")
  refuse (event.data.policyVersion ≠ some policyVersion ∨
      event.data.campaignId ≠ some campaign.id ∨
      event.data.campaignDigest ≠ some (campaignInputDigest campaign) ∨
      campaign.mintPriceWei ≠ 0 ∨ campaign.feePolicy.kind ≠ .free ∨ store.killSwitchOn = true)
    (thrown "AUTOMATION_AUTHORITY_INVALID")
  let score ← require (store.newestScore campaign) (thrown "AUTOMATION_SIGNAL_STALE")
  refuse (inScoreRange score.scoreNumber = false ∨ score.data.blocked = true)
    (thrown "AUTOMATION_SIGNAL_STALE")
  let expiresAt ← require score.data.expiresAt (thrown "AUTOMATION_SIGNAL_STALE")
  refuse (expiresAt ≤ store.clock) (thrown "AUTOMATION_SIGNAL_STALE")
  let source ← require
    (store.events.find? fun source =>
      some source.id = event.data.sourceEventId ∧ source.type = "watched_wallet_mint")
    (thrown "WATCHED_MINT_NOT_VERIFIED")
  let wallets ← require event.data.wallets (thrown "")
  pure (source, wallets)

/-- The source looked up again is still the one the campaign was prepared for. -/
def checkUnchanged (qualified : QualifiedSource) (campaign : AutomationCampaign) :
    Except Thrown PUnit :=
  refuse (qualified.verdict ≠ .replicable ∨ qualified.drop.mintPrice ≠ 0 ∨
      toLowerCase qualified.drop.nftContract ≠ toLowerCase campaign.contract ∨
      qualified.drop.chainId ≠ campaign.chainId ∨
      qualified.drop.strategyName ≠ campaign.strategy)
    (thrown "REPLICATION_CHANGED")

/-- What a reading says when a campaign may be fired on an authority: the authority holds the
digest of the campaign, the kill switch is off, and the newest score of the contract counts. -/
structure Live (campaignInputDigest : CampaignInputDigest) (store : AutomationStore)
    (eventId : String) (campaign : AutomationCampaign) : Prop where
  authority : ∃ event ∈ store.events, event.id = eventId ∧ event.type = "replication_prepared" ∧
    event.data.campaignId = some campaign.id ∧
    event.data.campaignDigest = some (campaignInputDigest campaign)
  killSwitchOff : store.killSwitchOn = false
  signal : ∃ score value expiresAt, store.newestScore campaign = some score ∧
    score.scoreNumber = some value ∧ 70 ≤ value ∧ value ≤ 100 ∧ score.data.blocked = false ∧
    score.data.expiresAt = some expiresAt ∧ store.clock < expiresAt

/-- The readings let nothing pass but a live authority of a free campaign. -/
theorem checkAuthority_live {campaignInputDigest : CampaignInputDigest} {store : AutomationStore}
    {eventId : String} {campaign : AutomationCampaign} {result : EventRecord × List String}
    (passed : checkAuthority campaignInputDigest store eventId campaign = .ok result) :
    Live campaignInputDigest store eventId campaign ∧ campaign.mintPriceWei = 0 := by
  simp only [checkAuthority, bind_eq_ok, refuse_eq_ok, require_eq_ok, not_or] at passed
  obtain ⟨event, found, -, ⟨-, named, digest, price, -, released⟩, score, newest, -,
    ⟨inRange, unblocked⟩, expiresAt, expires, -, notExpired, -⟩ := passed
  have isAuthority := List.find?_some found
  simp only [decide_eq_true_eq] at isAuthority
  obtain ⟨value, number, lower, upper⟩ : ∃ value, score.scoreNumber = some value ∧
      70 ≤ value ∧ value ≤ 100 := by
    unfold inScoreRange at inRange
    split at inRange
    · rename_i value number
      simp only [Bool.not_eq_false, Bool.and_eq_true, decide_eq_true_eq] at inRange
      exact ⟨value, number, inRange⟩
    · exact absurd rfl inRange
  refine ⟨⟨⟨event, List.mem_of_find?_eq_some found, isAuthority.1, isAuthority.2,
    not_not.mp named, not_not.mp digest⟩, Bool.eq_false_iff.mpr released,
    score, value, expiresAt, newest, number, lower, upper,
    Bool.eq_false_iff.mpr unblocked, expires, Int.not_le.mp notExpired⟩, not_not.mp price⟩

end MintBot.Replication
