import MintBot.Library.Machine
import MintBot.Replication.Authority

/-!
# Ticks of the replication automation

Several processes tick on one store.  A tick takes up the newest scores of a snapshot one
after the other.  For a score that counts it claims the contract, prepares campaigns, stores
an authority for each of them, and fires those that are free.  What is thrown on the way ends
the work on one contract.  A stage stands for what the tick waits for; between two stages
other processes write to the store, and at every stage the process may crash.
-/

namespace MintBot.Replication

open Fallible

/-! ## What a tick reads from its snapshot -/

/-- The newest score of each contract, in the order in which the contracts first appear. -/
def newestScores (events : List EventRecord) : OrderedMap String EventRecord :=
  events.foldl
    (fun scores event =>
      match event.data.contract with
      | some contract =>
          if event.isOpportunity then
            OrderedMap.set scores (chainText event.data.chainId ++ ":" ++ contract) event
          else scores
      | none => scores)
    []

/-- The scores that a tick goes through. -/
def scoreQueue (events : List EventRecord) : List EventRecord :=
  let scores := (newestScores events).map Prod.snd
  scores.drop (scores.length - 20)

/-- The ids of the claims in a snapshot. -/
def claimIds (events : List EventRecord) : List String :=
  (events.filter fun event => event.type = "replication_claim").map EventRecord.id

/-- A score of the last quarter of an hour that is high enough. -/
def scoreCounts (now : Time) (score : EventRecord) : Bool :=
  match score.instant, score.data.score with
  | some instant, some (.number value) =>
      0 ≤ now - instant && now - instant ≤ 15 * 60000 && !score.data.blocked &&
        inScoreRange (some value)
  | _, _ => false

/-- The last mint of the contract by a watched wallet.  The watched wallets are read only when
there is a mint to compare them with. -/
def findSource (events : List EventRecord) (watched : Except Thrown (List String))
    (score : EventRecord) : Except Thrown (Option EventRecord) :=
  let mints := events.reverse.filter fun event =>
    event.type = "watched_wallet_mint" && event.data.chainId = score.data.chainId &&
      event.data.contract = score.data.contract
  if mints = [] then .ok none
  else
    match watched with
    | .error error => .error error
    | .ok wallets =>
        .ok (mints.find? fun event =>
          wallets.any fun wallet =>
            toLowerCase wallet = toLowerCase (event.data.wallet.getD "undefined"))

/-! ## Stages -/

/-- A score with its source. -/
structure Job where
  score : EventRecord
  source : EventRecord
  deriving DecidableEq

/-- The contract of a score and its chain. -/
abbrev ContractOnChain := Option Int × String

def Job.contract (job : Job) : ContractOnChain :=
  (job.score.data.chainId, job.score.data.contract.getD "")

def Job.key (job : Job) : String :=
  claimKey job.contract.1 job.contract.2

/-- The work on one prepared campaign, with those that come after it. -/
structure Work where
  job : Job
  qualified : QualifiedSource
  prepared : Prepared
  rest : List Prepared
  deriving DecidableEq

/-- A prepared campaign with the event that was stored for it. -/
structure Authority where
  work : Work
  recorded : List String
  eventId : String
  deriving DecidableEq

def Authority.campaign (authority : Authority) : AutomationCampaign :=
  authority.work.prepared.campaign

structure Notice where
  text : String
  dedupe : String
  deriving DecidableEq

inductive Stage
  | looping
  /-- Waits for the wallets. -/
  | choosing (job : Job)
  | qualifying (job : Job) (wallets : List String)
  /-- Waits for the transaction that stores the claim. -/
  | claiming (job : Job) (wallets : List String) (qualified : QualifiedSource)
  | preparing (job : Job) (qualified : QualifiedSource)
  | simulating (work : Work)
  /-- Waits for the transaction that stores the authority. -/
  | storing (work : Work) (recorded : List String)
  /-- Waits until the owner has been told of a paid mint. -/
  | announcing (work : Work) (notice : Notice)
  /-- Waits for the check of the unattended host, in `assertReady`. -/
  | asserting (authority : Authority)
  /-- Waits for the second look at the source, in `assertReady`. -/
  | requalifying (authority : Authority)
  | firing (authority : Authority)
  /-- Waits for the transaction that stores the request. -/
  | requesting (authority : Authority) (requestId : String)
  /-- Waits until the owner has been told why a claimed contract was left. -/
  | stopping (notice : Notice)
  deriving DecidableEq

/-- A tick under way, numbered in the order the ticks began. -/
structure Tick where
  number : Nat
  events : List EventRecord
  claims : List String
  queue : List EventRecord
  stage : Stage := .looping
  deriving DecidableEq

/-- How a transaction ended: refused before its function ran, rolled back after it, or
committed; a committed one may still throw. -/
inductive TransactionEnd
  | refused (error : Thrown)
  | rolledBack (error : Thrown)
  | lost (error : Thrown)
  | committed
  deriving DecidableEq

/-- Whether the function of the transaction ran, and whether its writes stay. -/
def TransactionEnd.ran : TransactionEnd → Bool
  | .refused _ => false
  | _ => true

def TransactionEnd.writes : TransactionEnd → Bool
  | .refused _ | .rolledBack _ => false
  | .lost _ | .committed => true

/-- What the call that a tick waits for comes to. -/
inductive Answer
  /-- The watched wallets, when the next score is taken up. -/
  | watched (outcome : Except Thrown (List String))
  | wallets (outcome : Except Thrown (List String))
  | qualified (outcome : Except Thrown QualifiedSource)
  | claimed (ending : TransactionEnd) (place : Nat)
  | prepared (outcome : Except Thrown (List Prepared))
  | simulated (outcome : Except Thrown (List String))
  | stored (ending : TransactionEnd) (uuid : String) (place : Nat)
  | ready (outcome : Except Thrown Unit)
  /-- The second look at the source, and then whether the spend caps leave room. -/
  | requalified (outcome : Except Thrown QualifiedSource) (withinCaps : Except Thrown Bool)
  | fired (outcome : Except Thrown String)
  | requested (ending : TransactionEnd) (uuid : String) (place : Nat)
  | notified (outcome : Except Thrown Unit)

/-- What a tick did; no branch reads it. -/
inductive Act
  /-- `prepare` was called. -/
  | prepare (contract : ContractOnChain)
  /-- An authority was stored. -/
  | stored (event : EventRecord)
  /-- The check of the unattended host passed. -/
  | unattendedReady
  /-- The readings of `assertReady` passed on what the store held. -/
  | authorityChecked (eventId : String) (campaign : AutomationCampaign)
      (reading : AutomationStore)
  /-- `fireAutonomous` was called. -/
  | fire (campaign : AutomationCampaign) (wallets : List String) (maxFeeGwei : Rat)
      (eventId : String)
  deriving DecidableEq

/-- What one answer makes of a tick and of the store. -/
structure Turn where
  store : AutomationStore
  /-- The tick goes on, or it is over. -/
  tick : Option Tick
  acts : List Act := []

/-! ## One answer -/

/-- An upper-case letter and 2 to 90 more letters, digits and underscores. -/
def isReplicationCode : List Char → Bool
  | first :: rest =>
      isUpperLetter first && 2 ≤ rest.length && rest.length ≤ 90 &&
        rest.all fun char => isUpperLetter char || isDecimalDigit char || char = '_'
  | [] => false

def replicationCode (error : Thrown) : String :=
  if isReplicationCode error.message.toList then error.message
  else "REPLICATION_PREPARATION_BLOCKED"

def blockedNotice (key : String) (error : Thrown) : Notice where
  text := "Replication stopped: " ++ replicationCode error ++
    ". Check /runs and /requests before retrying."
  dedupe := "replication-blocked:" ++ key

def paidNotice (campaignId : CampaignId) (recorded : List String) (eventId : String) : Notice where
  text := "Paid mint prepared: " ++ campaignId ++ ". " ++ toString recorded.length ++
    " wallet(s) passed simulation. Final approval is required: use /fire and review the " ++
    "price and total exposure."
  dedupe := "replication-paid:" ++ eventId

def claimEvent (store : AutomationStore) (job : Job) : EventRecord where
  id := job.key
  type := "replication_claim"
  instant := some store.clock
  data :=
    { sourceEventId := some job.source.id
      scoreEventId := some job.score.id
      policyVersion := some policyVersion }

def authorityEvent (campaignInputDigest : CampaignInputDigest) (store : AutomationStore)
    (work : Work) (recorded : List String) (eventId : String) : EventRecord where
  id := eventId
  type := "replication_prepared"
  instant := some store.clock
  data :=
    { policyVersion := some policyVersion
      campaignId := some work.prepared.campaign.id
      campaignDigest := some (campaignInputDigest work.prepared.campaign)
      sourceEventId := some work.job.source.id
      sourceTxHash := some work.qualified.hash
      sourceWallet := some work.qualified.sender
      scoreEventId := some work.job.score.id
      score := work.job.score.data.score
      maxFeeGwei := some work.prepared.maxFeeGwei
      mintPriceWei := some (toString work.prepared.campaign.mintPriceWei)
      wallets := some recorded }

def requestedEvent (store : AutomationStore) (authority : Authority) (requestId eventId : String) :
    EventRecord where
  id := eventId
  type := "replication_requested"
  instant := some store.clock
  data :=
    { campaignId := some authority.campaign.id
      requestId := some requestId
      authorityEventId := some authority.eventId }

/-- The gate as the tick fills it in. -/
def automationGate (store : AutomationStore) (authority : Authority) (withinCaps : Bool) :
    List AutomationBlocker :=
  evaluateQualifiedAutomationGate
    { score := authority.work.job.score.scoreNumber
      replicationVerdict := authority.work.qualified.verdict
      simulationPassed := true
      chainVerified := authority.campaign.chainVerified
      spendWithinCaps := withinCaps
      killSwitchClear := !store.killSwitchOn
      operatorApproved := false
      mintPriceWei := some 0
      watchedWalletMintVerified := some true
      unattendedReady := some true }

namespace Tick

def move (tick : Tick) (stage : Stage) : Tick :=
  { tick with stage := stage }

/-- The `catch` block of a contract. -/
def stop (tick : Tick) (job : Job) (claimed : Bool) (error : Thrown) : Tick :=
  if claimed then tick.move (.stopping (blockedNotice job.key error)) else tick.move .looping

/-- The next of the prepared campaigns, or the next contract. -/
def nextPrepared (tick : Tick) (job : Job) (qualified : QualifiedSource) : List Prepared → Tick
  | [] => tick.move .looping
  | prepared :: rest => tick.move (.simulating ⟨job, qualified, prepared, rest⟩)

/-- Takes up the next score. -/
def takeScore (tick : Tick) (now : Time) (watched : Except Thrown (List String)) : Option Tick :=
  match tick.queue with
  | [] => none
  | score :: rest =>
      let tick := { tick with queue := rest }
      if scoreCounts now score = false then some tick
      else
        match findSource tick.events watched score with
        -- This is thrown outside the `try` block and ends the tick.
        | .error _ => none
        | .ok none => some tick
        | .ok (some source) =>
            let job : Job := ⟨score, source⟩
            if job.key ∈ tick.claims then some tick else some (tick.move (.choosing job))

end Tick

variable (campaignInputDigest : CampaignInputDigest)

/-- The transaction that stores the claim of a contract. -/
def claim (store : AutomationStore) (tick : Tick) (job : Job) (qualified : QualifiedSource)
    (ending : TransactionEnd) (place : Nat) : Turn :=
  let claimed := ending.ran && !store.knows job.key
  let after := if claimed && ending.writes then store.push place (claimEvent store job) else store
  match ending with
  | .refused error | .rolledBack error | .lost error =>
      { store := after, tick := some (tick.stop job claimed error) }
  | .committed =>
      if claimed then
        { store := after
          tick := some
            ({ tick with claims := job.key :: tick.claims }.move (.preparing job qualified))
          acts := [.prepare job.contract] }
      else { store := after, tick := some (tick.move .looping) }

/-- The transaction that stores the authority of a prepared campaign. -/
def store (store : AutomationStore) (tick : Tick) (work : Work) (recorded : List String)
    (ending : TransactionEnd) (eventId : String) (place : Nat) : Turn :=
  let event := authorityEvent campaignInputDigest store work recorded eventId
  let after := if ending.writes then store.push place event else store
  let acts := if ending.writes then [Act.stored event] else []
  match ending with
  | .refused error | .rolledBack error | .lost error =>
      { store := after, tick := some (tick.stop work.job true error), acts := acts }
  | .committed =>
      let stage := if 0 < work.prepared.campaign.mintPriceWei then
          .announcing work (paidNotice work.prepared.campaign.id recorded eventId)
        else .asserting ⟨work, recorded, eventId⟩
      { store := after, tick := some (tick.move stage), acts := acts }

/-- `assertReady` after the check of the unattended host. -/
def assertAuthority (store : AutomationStore) (tick : Tick) (authority : Authority) : Turn :=
  match checkAuthority campaignInputDigest store authority.eventId authority.campaign with
  | .error error =>
      { store := store
        tick := some (tick.stop authority.work.job true error)
        acts := [.unattendedReady] }
  | .ok _ =>
      { store := store
        tick := some (tick.move (.requalifying authority))
        acts := [.unattendedReady,
          .authorityChecked authority.eventId authority.campaign store] }

/-- The end of `assertReady` and the gate. -/
def passGate (store : AutomationStore) (authority : Authority) (qualified : QualifiedSource)
    (withinCaps : Except Thrown Bool) : Except Thrown PUnit := do
  checkUnchanged qualified authority.campaign
  let withinCaps ← withinCaps
  match automationGate store authority withinCaps with
  | [] => pure ⟨⟩
  | blocker :: _ => .error (thrown blocker.text)

/-- What an answer makes of a tick. -/
def advance (store : AutomationStore) (tick : Tick) : Stage → Answer → Except Error Turn
  | .looping, .watched watched =>
      .ok { store := store, tick := tick.takeScore store.clock watched }
  | .choosing job, .wallets outcome =>
      match outcome with
      | .error error => .ok { store := store, tick := some (tick.stop job false error) }
      | .ok wallets => .ok { store := store, tick := some (tick.move (.qualifying job wallets)) }
  | .qualifying job wallets, .qualified outcome =>
      match outcome with
      | .error error => .ok { store := store, tick := some (tick.stop job false error) }
      | .ok qualified =>
          if qualified.verdict ≠ .replicable then
            .ok { store := store, tick := some (tick.move .looping) }
          else
            .ok { store := store, tick := some (tick.move (.claiming job wallets qualified)) }
  | .claiming job _ qualified, .claimed ending place =>
      .ok (claim store tick job qualified ending place)
  | .preparing job qualified, .prepared outcome =>
      match outcome with
      | .error error => .ok { store := store, tick := some (tick.stop job true error) }
      | .ok prepared => do
          -- Every prepared campaign was created with an id of its own.
          let ids := prepared.map fun one => one.campaign.id
          refuse (¬ ids.Nodup ∨ ∃ campaignId ∈ ids, campaignId ∈ store.campaignIds) "UNIQUE"
          pure
            { store := { store with campaignIds := store.campaignIds ++ ids }
              tick := some (tick.nextPrepared job qualified prepared) }
  | .simulating work, .simulated outcome =>
      match outcome with
      | .error error => .ok { store := store, tick := some (tick.stop work.job true error) }
      | .ok [] =>
          .ok
            { store := store
              tick := some (tick.stop work.job true (thrown "SIMULATION_NOT_PASSED")) }
      | .ok recorded =>
          .ok { store := store, tick := some (tick.move (.storing work recorded)) }
  | .storing work recorded, .stored ending uuid place =>
      .ok (Replication.store campaignInputDigest store tick work recorded ending
        ("replication_prepared_" ++ uuid) place)
  | .announcing work _, .notified outcome =>
      match outcome with
      | .error error => .ok { store := store, tick := some (tick.stop work.job true error) }
      | .ok _ =>
          .ok { store := store, tick := some (tick.nextPrepared work.job work.qualified work.rest) }
  | .asserting authority, .ready outcome =>
      match outcome with
      | .error error =>
          .ok { store := store, tick := some (tick.stop authority.work.job true error) }
      | .ok _ => .ok (assertAuthority campaignInputDigest store tick authority)
  | .requalifying authority, .requalified outcome withinCaps =>
      match outcome.bind fun qualified => passGate store authority qualified withinCaps with
      | .error error =>
          .ok { store := store, tick := some (tick.stop authority.work.job true error) }
      | .ok _ =>
          .ok
            { store := store
              tick := some (tick.move (.firing authority))
              acts := [.fire authority.campaign authority.recorded
                authority.work.prepared.maxFeeGwei authority.eventId] }
  | .firing authority, .fired outcome =>
      match outcome with
      | .error error =>
          .ok { store := store, tick := some (tick.stop authority.work.job true error) }
      | .ok requestId =>
          .ok { store := store, tick := some (tick.move (.requesting authority requestId)) }
  | .requesting authority requestId, .requested ending uuid place =>
      let event := requestedEvent store authority requestId ("replication_requested_" ++ uuid)
      let after := if ending.writes then store.push place event else store
      match ending with
      | .refused error | .rolledBack error | .lost error =>
          .ok { store := after, tick := some (tick.stop authority.work.job true error) }
      | .committed =>
          .ok
            { store := after
              tick := some
                (tick.nextPrepared authority.work.job authority.work.qualified
                  authority.work.rest) }
  | .stopping _, .notified _ => .ok { store := store, tick := some (tick.move .looping) }
  | _, _ => .error "NOT_NOW"

/-! ## The machine -/

/-- An act of a process in one of its ticks. -/
structure Entry where
  process : Nat
  tick : Nat
  act : Act
  deriving DecidableEq

structure Automations where
  store : AutomationStore := {}
  /-- The tick under way in a process; it is there exactly while the process is busy. -/
  ticks : Nat → Option Tick := fun _ => none
  nextTick : Nat := 0
  log : List Entry := []

inductive Command
  /-- Another part of the program adds an event. -/
  | append (event : EventRecord) (place : Nat)
  | setKillSwitch (engaged : Bool)
  | setClock (now : Time)
  | createCampaign (campaignId : CampaignId)
  | tick (process : Nat)
  | answer (process : Nat) (answer : Answer)
  | crash (process : Nat)

/-- The events that only the automation writes. -/
def automationTypes : List String :=
  ["replication_claim", "replication_prepared", "replication_requested"]

namespace Automations

def setTick (state : Automations) (process : Nat) (tick : Option Tick) : Automations :=
  { state with ticks := Function.update state.ticks process tick }

/-- A tick that begins. -/
def begin (state : Automations) : Tick where
  number := state.nextTick
  events := state.store.events
  claims := claimIds state.store.events
  queue := scoreQueue state.store.events

/-- What an answer does. -/
def take (state : Automations) (process : Nat) (tick : Tick) (turn : Turn) : Automations :=
  { state.setTick process turn.tick with
    store := turn.store
    log := state.log ++ turn.acts.map fun act => ⟨process, tick.number, act⟩ }

def step : Command → Automations → Except Error Automations
  | .append event place, state => do
      refuse (event.type ∈ automationTypes) "NOT_OURS"
      pure { state with store := state.store.push place event }
  | .setKillSwitch engaged, state =>
      .ok { state with store := { state.store with killSwitchOn := engaged } }
  | .setClock now, state => .ok { state with store := { state.store with clock := now } }
  | .createCampaign campaignId, state =>
      .ok { state with
        store := { state.store with campaignIds := state.store.campaignIds ++ [campaignId] } }
  | .tick process, state => do
      refuse (state.ticks process).isSome "BUSY"
      pure { state.setTick process (some state.begin) with nextTick := state.nextTick + 1 }
  | .answer process answer, state => do
      let tick ← require (state.ticks process) "NOT_NOW"
      let turn ← advance campaignInputDigest state.store tick tick.stage answer
      pure (state.take process tick turn)
  | .crash process, state => .ok (state.setTick process none)

end Automations

end MintBot.Replication
