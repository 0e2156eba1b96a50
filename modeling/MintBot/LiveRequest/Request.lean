import MintBot.Types

/-!
# Live run requests

The owner, a schedule or an automation writes a request for one live run.  It lives at most
thirty minutes.  The host service claims it once, arms it and runs it; whatever happens, it
records one result with a fixed code.
-/

namespace MintBot

/-- Where a request comes from; `legacy` ones were written before this was recorded. -/
inductive RequestProvenance
  | legacy
  | attended
  | schedule (scheduleId : String)
  | automation (eventId : String)
  deriving DecidableEq, Repr

structure LiveRunRequest where
  id : String
  campaignId : CampaignId
  wallets : List String
  simulationIds : List String := []
  approvalId : String := ""
  evidenceAt : Time := 0
  /-- What `Number` reads from the stored text, if that is finite. -/
  maxFeeGwei : Option Rat
  /-- What `Date.parse` reads from the stored texts, if that is a time. -/
  requestedAt : Option Time
  expiresAt : Option Time
  provenance : Option RequestProvenance
  deriving DecidableEq, Repr

def maxClockSkewMs : Time := 60000

/-- Dated more than a minute ahead, or not dated at all. -/
def LiveRunRequest.isFuture (request : LiveRunRequest) (now : Time) : Bool :=
  match request.requestedAt with
  | some requestedAt => now + maxClockSkewMs < requestedAt
  | none => true

def LiveRunRequest.isExpired (request : LiveRunRequest) (now : Time) : Bool :=
  match request.expiresAt with
  | some expiresAt => expiresAt ≤ now
  | none => false

def LiveRunRequest.isScheduled (request : LiveRunRequest) : Bool :=
  match request.provenance with
  | some (.schedule _) => true
  | _ => false

/-- The only outcome row of a request, which is its claim. -/
inductive LiveOutcome
  | started
  | expired
  | cancelled
  deriving DecidableEq, Repr

/-! ## Codes of failures -/

/-- What is thrown: the message is empty when it is no error, and the name is that of the
error's type. -/
structure Thrown where
  message : String := ""
  code : Option String := none
  name : Option String := none
  deriving DecidableEq, Repr

def isUpperLetter (char : Char) : Bool :=
  'A' ≤ char && char ≤ 'Z'

def isDecimalDigit (char : Char) : Bool :=
  '0' ≤ char && char ≤ '9'

/-- An upper-case letter and 2 to 80 more letters, digits and underscores. -/
def isFixedCode : List Char → Bool
  | first :: rest =>
      isUpperLetter first && 2 ≤ rest.length && rest.length ≤ 80 &&
        rest.all fun char => isUpperLetter char || isDecimalDigit char || char = '_'
  | [] => false

/-- A system error code such as `EACCES`. -/
def isSystemCode (text : String) : Bool :=
  match text.toList with
  | 'E' :: rest =>
      2 ≤ rest.length && rest.length ≤ 20 &&
        rest.all fun char => isUpperLetter char || isDecimalDigit char
  | _ => false

def standardErrorNames : List String :=
  ["TypeError", "RangeError", "SyntaxError", "ReferenceError", "AbortError", "TimeoutError"]

def toUpperCase (text : String) : String :=
  String.ofList (text.toList.map Char.toUpper)

/-- Up to three fixed parts of the message, or hints from two fixed vocabularies. -/
def safeCode (error : Thrown) : String :=
  let parts := ((error.message.toList.splitOn ':').take 3).takeWhile isFixedCode
  let hints := (error.code.filter isSystemCode).toList ++
    ((error.name.filter (standardErrorNames.contains ·)).map toUpperCase).toList
  if parts ≠ [] then String.intercalate ":" (parts.map String.ofList)
  else String.intercalate ":" ("LIVE_REQUEST_FAILED" :: hints)

/-! ## Results -/

inductive LiveResultState
  | finished
  | stopped
  | expired
  deriving DecidableEq, Repr

inductive RunClosed
  | closed
  | left
  | absent
  deriving DecidableEq, Repr

structure SentTransaction where
  hash : String
  wallet : String
  deriving DecidableEq, Repr

/-- What is recorded about a request in the end. -/
structure LiveRecord where
  run : Option RunId := none
  state : LiveResultState
  code : Option String := none
  runClosed : Option RunClosed := none
  sent : List SentTransaction := []
  deriving DecidableEq, Repr

/-- The result of a run that returned in a state.  An active run is finished only when the
store shows a transaction of it. -/
def runResult (state : Option String) (sent : List SentTransaction) :
    LiveResultState × Option String :=
  if state = some "Completed" then (.finished, none)
  else if state = some "Active" then
    if sent ≠ [] then (.finished, some "RUN_ACTIVE")
    else (.stopped, some "RUN_ACTIVE_NO_SENT_TRANSACTION")
  else (.stopped,
    some ("RUN_" ++ safeCode { message := toUpperCase (state.getD "UNKNOWN") }))

/-! ## Checks -/

/-- The checks of an unattended request. -/
inductive LiveCheck
  | unattended
  | automation (eventId : String)
  | scheduledCampaign
  deriving DecidableEq, Repr

/-- Which optional parts the host gives to its processor. -/
structure LiveProcessorDeps where
  assertUnattendedReady : Bool := true
  assertAutomationReady : Bool := true
  assertScheduledCampaignReady : Bool := true
  sentTransactions : Bool := true
  closeRun : Bool := true
  deriving DecidableEq, Repr

/-- The check of the scheduled campaign is left out where the host has none. -/
def requiredChecks (deps : LiveProcessorDeps) (request : LiveRunRequest) : List LiveCheck :=
  match request.provenance with
  | some (.schedule _) =>
      .unattended :: if deps.assertScheduledCampaignReady then [.scheduledCampaign] else []
  | some (.automation eventId) => [.unattended, .automation eventId]
  | _ => []

/-- The error of a check that the host does not have. -/
def missingCheck (deps : LiveProcessorDeps) : LiveCheck → Option String
  | .unattended =>
      if deps.assertUnattendedReady then none else some "OPS_EVIDENCE_CHECK_REQUIRED"
  | .automation _ =>
      if deps.assertAutomationReady then none else some "AUTOMATION_AUTHORITY_REQUIRED"
  | .scheduledCampaign => none

def maxFeeCeilingGwei : Rat := 500

/-- What is looked at before the checks. -/
def acceptRequest (request : LiveRunRequest) (found : Except Thrown (Option Campaign)) :
    Except Thrown (Campaign × Rat) :=
  match found with
  | .error error => .error error
  | .ok none => .error { message := "CAMPAIGN_NOT_FOUND" }
  | .ok (some campaign) =>
      match request.maxFeeGwei with
      | none => .error { message := "MAX_FEE_GWEI_INVALID" }
      | some fee =>
          if fee ≤ 0 ∨ maxFeeCeilingGwei < fee then
            .error { message := "MAX_FEE_GWEI_INVALID" }
          else if request.provenance = some .legacy then
            .error { message := "LEGACY_REQUEST_PROVENANCE_UNVERIFIED" }
          else if request.isScheduled = true ∧ 0 < campaign.mintPriceWei then
            .error { message := "PAID_FINAL_FIRE_REQUIRED" }
          else .ok (campaign, fee)

end MintBot
