import MintBot.Discovery.Scoring
import MintBot.Library.OrderedMap
import Mathlib.Data.List.Sort

/-!
# What discovery remembers

The service counts mints for each contract, keeps a calendar of drops and remembers what it
has already announced.  Its memory is bounded, is lost with the process and is rebuilt from
the events it has written.
-/

namespace MintBot

/-! ## What the chain shows -/

def isLowerHex (char : Char) : Bool :=
  ('0' ≤ char && char ≤ '9') || ('a' ≤ char && char ≤ 'f')

/-- A text of the form `0x` with so many digits behind it. -/
def isHexText (isDigit : Char → Bool) (digits : Nat) (text : String) : Bool :=
  match text.toList with
  | '0' :: 'x' :: rest => rest.length = digits && rest.all isDigit
  | _ => false

def isLowerAddress (text : String) : Bool :=
  isHexText isLowerHex 40 text

def isTransactionHash (text : String) : Bool :=
  isHexText (fun char => isLowerHex char || ('A' ≤ char && char ≤ 'F')) 64 text

/-- The address of a contract, in any letter case. -/
structure ContractAddress where
  text : String
  valid : isLowerAddress (toLowerCase text) = true

def ContractAddress.lower (address : ContractAddress) : String :=
  toLowerCase address.text

/-- A public mint of the drop contract. -/
structure ObservedMint where
  nftContract : ContractAddress
  minter : String
  payer : String
  quantity : Nat
  unitPriceWei : Wei
  blockNumber : Int
  txHash : Option String
  logIndex : Option Nat

structure ObservedWatchedMint where
  nftContract : ContractAddress
  recipient : String
  txHash : Option String
  logIndex : Option Nat

structure ObservedDropUpdate where
  nftContract : ContractAddress
  mintPriceWei : Wei
  startTime : Int
  endTime : Int
  maxPerWallet : Int

structure ChainScan where
  fromBlock : Int
  toBlock : Int
  mints : List ObservedMint := []
  dropUpdates : List ObservedDropUpdate := []
  watchedMints : List ObservedWatchedMint := []

/-- Times are in seconds; what is unknown is never zero. -/
structure DropSnapshot where
  nftContract : String
  priceWei : Wei
  startTime : Int
  endTime : Int
  maxPerWallet : Int
  maxSupply : Option Int := none
  totalMinted : Option Int := none
  deriving DecidableEq, Repr

def maxChainTimeSeconds : Int := 7258118400

def validChainTime (seconds : Int) : Bool :=
  0 ≤ seconds && seconds ≤ maxChainTimeSeconds

/-- Untrusted times out of range are rejected; an absurd end means open-ended. -/
def sanitizeDrop (drop : DropSnapshot) : Option DropSnapshot :=
  if validChainTime drop.startTime = false ∨ maxSafeInteger < drop.maxPerWallet ∨
      drop.maxPerWallet < 0 ∨ drop.priceWei < 0 then none
  else if validChainTime drop.endTime then some drop
  else some { drop with endTime := 0 }

/-- What makes a calendar entry a new one. -/
structure DropSignature where
  priceWei : Wei
  startTime : Int
  endTime : Int
  maxPerWallet : Int
  deriving DecidableEq, Repr

def dropSignature (drop : DropSnapshot) : DropSignature where
  priceWei := drop.priceWei
  startTime := drop.startTime
  endTime := drop.endTime
  maxPerWallet := drop.maxPerWallet

/-! ## What discovery writes -/

inductive Disposition
  | scored
  | notified
  deriving DecidableEq, Repr

/-- The data of `opportunity_scored` and `opportunity_notified`. -/
structure OpportunityData where
  chainId : ChainId
  contract : String
  disposition : Disposition
  collectionName : Option String := none
  score : Option Nat
  confidence : Nat
  confidenceLabel : ConfidenceLabel
  band : Option ScoreBand
  blocked : Bool
  factors : List ScoredFactor
  risks : List ScoreRisk
  watchedMinters : List String
  mintsLastHour : Nat
  totalMinted : Option Nat
  priceWei : Option Wei
  hasCode : Option Bool
  openingAt : Option Time
  watchedReceivers : List String
  sourceBlock : Int
  firstSeenAt : Option Time
  lastActivityAt : Option Time
  expiresAt : Time
  deriving DecidableEq, Repr

inductive DropPhase
  | upcoming
  | active
  deriving DecidableEq, Repr

/-- The data of `calendar_entry`. -/
structure CalendarData where
  chainId : ChainId
  contract : String
  openingAt : Option Time
  closingAt : Option Time
  phase : DropPhase
  priceWei : Wei
  maxPerWallet : Int
  maxSupply : Option Int
  totalMinted : Option Int
  sourceBlock : Int
  expiresAt : Time
  deriving DecidableEq, Repr

/-- Only the events of watched mints have an id that is made from what they say. -/
inductive DiscoveryEventId
  | random
  | watchedMint (chainId : ChainId) (txHash : String) (logIndex : Option Nat)
  deriving DecidableEq, Repr

inductive DiscoveryEventData
  | skipped (chainId : ChainId) (fromBlock toBlock headBlock : Int)
  | watchedMint (chainId : ChainId) (contract wallet txHash : String) (sourceBlock : Int)
  | opportunity (data : OpportunityData)
  | calendarEntry (data : CalendarData)
  | other (type : String)
  deriving DecidableEq, Repr

structure DiscoveryEvent where
  id : DiscoveryEventId := .random
  at_ : Time
  data : DiscoveryEventData
  deriving DecidableEq, Repr

inductive OpeningWindow
  | halfHour
  | sixHours
  deriving DecidableEq, Repr

/-- By what an alert is raised once; its kind goes with it. -/
inductive AlertDedupe
  | opportunity (contract : String) (band : ScoreBand)
  | priceAboveLimit (contract : String) (priceWei : Wei)
  | openingSoon (contract : String) (startTime : Int) (window : OpeningWindow)
  deriving DecidableEq, Repr

structure DiscoveryAlert where
  dedupe : AlertDedupe
  immediate : Bool := false
  collectionName : Option String := none
  deriving DecidableEq, Repr

/-! ## The memory of the service -/

structure MintBatch where
  at_ : Time
  quantity : Nat
  deriving DecidableEq, Repr

/-- What was last announced about an opportunity. -/
structure OpportunityMark where
  at_ : Time
  score : Nat
  band : ScoreBand
  deriving DecidableEq, Repr

structure TrackedItem where
  contract : String
  firstSeenAt : Time
  lastActivityAt : Time
  mints : List MintBatch := []
  totalMinted : Nat := 0
  watched : OrderedMap String Time := []
  received : OrderedMap String Time := []
  priceWei : Option Wei := none
  drop : Option DropSnapshot := none
  dropReadAt : Option Time := none
  hasCode : Option Bool := none
  lastEmit : Option OpportunityMark := none
  deriving DecidableEq, Repr

/-- What was last announced about a drop. -/
structure CalendarMark where
  at_ : Time
  signature : DropSignature
  deriving DecidableEq, Repr

structure CalendarItem where
  drop : DropSnapshot
  lastEmit : Option CalendarMark
  deriving DecidableEq, Repr

inductive SightingKind
  | mint
  | watched
  deriving DecidableEq, Repr

/-- The identity of a log that was counted. -/
structure Sighting where
  kind : SightingKind
  txHash : String
  logIndex : Nat
  deriving DecidableEq, Repr

structure DiscoveryMemory where
  tracked : OrderedMap String TrackedItem := []
  calendar : OrderedMap String CalendarItem := []
  /-- The oldest first. -/
  seenLogs : List Sighting := []
  openingAlertTimes : List Time := []
  priceAlertIdentities : OrderedMap String Wei := []
  restored : Bool := false

structure DiscoveryOptions where
  chainId : ChainId
  initialLookbackBlocks : Int := 300
  maxScansPerTick : Nat := 8
  maxLagBlocks : Int := 1200
  budgetPerNftWei : Wei

def hourMs : Time := 60 * 60000
def convergenceWindowMs : Time := 6 * hourMs
def discoveryFreshnessMs : Time := 15 * 60000
def refreshBeforeStaleMs : Time := 3 * 60000
def scoreChange : Nat := 5
def calendarHorizonMs : Time := 30 * 24 * hourMs
def maxTracked : Nat := 500
def maxCalendar : Nat := 200
def maxSeenLogs : Nat := 100000
def maxOpeningAlertsPerDay : Nat := 20

namespace DiscoveryMemory

/-- The identity under which a log is counted; a log without one is counted every time. -/
def sightingOf (kind : SightingKind) (txHash : Option String) (logIndex : Option Nat) :
    Option Sighting :=
  match txHash, logIndex with
  | some hash, some index =>
      if hash = "" then none
      else some { kind := kind, txHash := toLowerCase hash, logIndex := index }
  | _, _ => none

/-- Whether a log is counted now, and the memory with its identity in it. -/
def firstSighting (memory : DiscoveryMemory) (sighting : Option Sighting) :
    Bool × DiscoveryMemory :=
  match sighting with
  | none => (true, memory)
  | some seen =>
      if seen ∈ memory.seenLogs then (false, memory)
      else
        let logs := memory.seenLogs ++ [seen]
        (true, { memory with seenLogs := if maxSeenLogs < logs.length then logs.tail else logs })

/-- The item of a contract, which is made when there is none.  When there are too many, the
quietest of the others is dropped. -/
def track (memory : DiscoveryMemory) (address : ContractAddress) (at_ : Time) :
    TrackedItem × DiscoveryMemory :=
  let contract := address.lower
  match memory.tracked.get contract with
  | some item => (item, memory)
  | none =>
      let item : TrackedItem :=
        { contract := contract, firstSeenAt := at_, lastActivityAt := at_
          drop := (memory.calendar.get contract).map CalendarItem.drop }
      let tracked := memory.tracked.set contract item
      let quietest :=
        ((tracked.filter fun entry => entry.1 ≠ contract).insertionSort
          fun left right => left.2.lastActivityAt ≤ right.2.lastActivityAt).head?
      let kept :=
        if maxTracked < tracked.length then
          match quietest with
          | some entry => tracked.delete entry.1
          | none => tracked
        else tracked
      (item, { memory with tracked := kept })

/-- A calendar entry keeps its mark unless a new one is given.  When there are too many
entries, the one of the others that opens last is dropped. -/
def putCalendar (memory : DiscoveryMemory) (contract : String) (drop : DropSnapshot)
    (lastEmit : Option CalendarMark := none) : DiscoveryMemory :=
  let mark := lastEmit.or ((memory.calendar.get contract).bind CalendarItem.lastEmit)
  let calendar := memory.calendar.set contract { drop := drop, lastEmit := mark }
  let furthest :=
    ((calendar.filter fun entry => entry.1 ≠ contract).insertionSort
      fun left right => right.2.drop.startTime ≤ left.2.drop.startTime).head?
  match furthest with
  | some entry =>
      if calendar.length ≤ maxCalendar then { memory with calendar := calendar }
      else { memory with
        calendar := calendar.delete entry.1
        priceAlertIdentities := memory.priceAlertIdentities.delete entry.1 }
  | none => { memory with calendar := calendar }

/-- Whether one more opening alert may be raised today. -/
def openingAlertAllowed (memory : DiscoveryMemory) (now : Time) : Bool × DiscoveryMemory :=
  let times := memory.openingAlertTimes.dropWhile fun earlier => 24 * hourMs < now - earlier
  if maxOpeningAlertsPerDay ≤ times.length then (false, { memory with openingAlertTimes := times })
  else (true, { memory with openingAlertTimes := times ++ [now] })

/-- What is over or quiet is forgotten. -/
def prune (memory : DiscoveryMemory) (now : Time) : DiscoveryMemory :=
  let pruned := memory.tracked.map fun entry =>
    (entry.1, { entry.2 with
      mints := entry.2.mints.filter fun mint => now - mint.at_ ≤ hourMs
      watched := entry.2.watched.filter fun seen => now - seen.2 ≤ convergenceWindowMs })
  let tracked := pruned.filter fun entry => now - entry.2.lastActivityAt ≤ convergenceWindowMs
  let isOver (entry : String × CalendarItem) : Bool :=
    (entry.2.drop.endTime ≠ 0 && entry.2.drop.endTime * 1000 ≤ now) ||
      (entry.2.drop.startTime * 1000 ≤ now && entry.2.lastEmit.isSome &&
        (OrderedMap.get tracked entry.1).isNone)
  { memory with
    tracked := tracked
    calendar := memory.calendar.filter fun entry => !isOver entry
    priceAlertIdentities := memory.priceAlertIdentities.filter fun identity =>
      !(memory.calendar.any fun entry => entry.1 = identity.1 && isOver entry) }

/-! ## Restoring -/

/-- Opportunity events are only restored when they are of this type. -/
def restoredKey (chainId : ChainId) (event : DiscoveryEvent) : Option (Bool × String) :=
  match event.data with
  | .opportunity data =>
      if data.disposition = .scored ∧ data.chainId = chainId then some (true, data.contract)
      else none
  | .calendarEntry data => if data.chainId = chainId then some (false, data.contract) else none
  | _ => none

/-- An event takes the place of one that is not later. -/
def keepLatest (chainId : ChainId) (latest : OrderedMap (Bool × String) DiscoveryEvent)
    (event : DiscoveryEvent) : OrderedMap (Bool × String) DiscoveryEvent :=
  match restoredKey chainId event with
  | none => latest
  | some key =>
      match latest.get key with
      | some prior => if prior.at_ ≤ event.at_ then latest.set key event else latest
      | none => latest.set key event

/-- The last event of each contract, by its time. -/
def latestEvents (chainId : ChainId) (events : List DiscoveryEvent) :
    OrderedMap (Bool × String) DiscoveryEvent :=
  events.foldl (keepLatest chainId) []

def dropFromEvent (data : CalendarData) (contract : String) : Option DropSnapshot :=
  match data.openingAt with
  | none => none
  | some start =>
      if data.priceWei < 0 ∨ maxSafeInteger < (data.maxPerWallet.natAbs : Int) then none
      else some
        { nftContract := contract
          priceWei := data.priceWei
          startTime := start / 1000
          endTime := (data.closingAt.getD 0) / 1000
          maxPerWallet := data.maxPerWallet }

/-- The item that an opportunity event stands for. -/
def restoredItem (contract : String) (at_ : Time) (data : OpportunityData) : TrackedItem :=
  let lastActivityAt := data.lastActivityAt.getD at_
  { contract := contract
    firstSeenAt := data.firstSeenAt.getD at_
    lastActivityAt := lastActivityAt
    totalMinted := data.totalMinted.getD 0
    watched := data.watchedMinters.foldl
      (fun watched address => OrderedMap.set watched (toLowerCase address) lastActivityAt) []
    priceWei := data.priceWei.filter (0 ≤ ·)
    hasCode := data.hasCode
    lastEmit := some
      { at_ := at_, score := data.score.getD 0, band := data.band.getD .log } }

def restoreEvent (now : Time) (memory : DiscoveryMemory) (event : DiscoveryEvent) :
    DiscoveryMemory :=
  match event.data with
  | .calendarEntry data =>
      let contract := toLowerCase data.contract
      if isLowerAddress contract then
        match dropFromEvent data contract with
        | some drop =>
            if drop.endTime = 0 ∨ now < drop.endTime * 1000 then
              memory.putCalendar contract drop
                (some { at_ := event.at_, signature := dropSignature drop })
            else memory
        | none => memory
      else memory
  | .opportunity data =>
      let contract := toLowerCase data.contract
      if isLowerAddress contract then
        if convergenceWindowMs < now - data.lastActivityAt.getD event.at_ then memory
        else { memory with
          tracked := memory.tracked.set contract (restoredItem contract event.at_ data) }
      else memory
  | _ => memory

/-- Rebuilds recent state from the last opportunity and calendar events. -/
def restore (options : DiscoveryOptions) (now : Time) (events : List DiscoveryEvent)
    (memory : DiscoveryMemory) : DiscoveryMemory :=
  ((latestEvents options.chainId events).map Prod.snd).foldl (restoreEvent now) memory

end DiscoveryMemory

end MintBot
