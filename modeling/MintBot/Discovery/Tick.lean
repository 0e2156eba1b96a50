import Mathlib.Algebra.GroupWithZero.Nat
import MintBot.Discovery.Memory
import MintBot.Library.Machine

/-!
# The ticks of discovery

A tick reads the settled head, scans towards it in slices and, after each slice, announces
what has changed and stores the cursor.  It writes to the store at several points, and each
write may fail: the tick throws, what it has changed in memory stays, and it is run again
later.

A run of the machine interleaves the pieces of the ticks of one service between two writes
with crashes, restarts and the events that others write.
-/

namespace MintBot

open Fallible Machine

/-! ## Announcing opportunities -/

/-- What an announcing pass reads besides the memory. -/
structure EmissionInput where
  now : Time
  refreshAllowed : Bool
  sourceBlock : Int
  watchingConfigured : Bool
  /-- The names of collections, read from the chain. -/
  names : String → Option String

/-- A new event, the mark it leaves and the alert it comes with. -/
structure Announcement where
  data : OpportunityData
  mark : OpportunityMark
  alert : Option DiscoveryAlert

def recentMints (now : Time) (item : TrackedItem) : Nat :=
  ((item.mints.filter fun mint => now - mint.at_ ≤ hourMs).map MintBatch.quantity).sum

def recentWatched (now : Time) (item : TrackedItem) : OrderedMap String Time :=
  item.watched.filter fun seen => now - seen.2 ≤ convergenceWindowMs

def scoreItem (options : DiscoveryOptions) (input : EmissionInput) (item : TrackedItem) : ScoreResult :=
  scoreOpportunity
    { watchedMinters := (recentWatched input.now item).length
      watchingConfigured := input.watchingConfigured
      priceWei := item.priceWei
      budgetPerNftWei := options.budgetPerNftWei
      knownSeaDropPattern := item.drop.isSome
      hasCode := item.hasCode
      mintsLastHour := recentMints input.now item
      discoveredAt := item.firstSeenAt
      now := input.now }

/-- Nothing was announced yet, or something else was. -/
def opportunityChanged (lastEmit : Option OpportunityMark) (scored : ScoreResult) : Bool :=
  match lastEmit with
  | none => true
  | some last =>
      last.band ≠ scored.band || scoreChange ≤ ((last.score : Int) - scored.score).natAbs

def refreshDue (input : EmissionInput) (lastAt : Time) : Bool :=
  input.refreshAllowed && discoveryFreshnessMs - refreshBeforeStaleMs ≤ input.now - lastAt

def opportunityDue (input : EmissionInput) (lastEmit : Option OpportunityMark)
    (scored : ScoreResult) : Bool :=
  opportunityChanged lastEmit scored ||
    (lastEmit.any fun last => refreshDue input last.at_)

def isAlertable (scored : ScoreResult) : Bool :=
  !scored.blocked && scored.band ≠ .log

def opportunityData (options : DiscoveryOptions) (input : EmissionInput) (item : TrackedItem)
    (scored : ScoreResult) : OpportunityData where
  chainId := options.chainId
  contract := item.contract
  disposition := if scored.band = .log then .scored else .notified
  collectionName := if isAlertable scored then input.names item.contract else none
  score := some scored.score
  confidence := scored.confidence
  confidenceLabel := scored.confidenceLabel
  band := some scored.band
  blocked := scored.blocked
  factors := scored.factors
  risks := scored.risks
  watchedMinters :=
    ((recentWatched input.now item).map Prod.fst).insertionSort (· ≤ ·)
  mintsLastHour := recentMints input.now item
  totalMinted := some item.totalMinted
  priceWei := item.priceWei
  hasCode := item.hasCode
  openingAt := item.drop.bind fun drop =>
    if 0 < drop.startTime then some (drop.startTime * 1000) else none
  watchedReceivers := (item.received.map Prod.fst).insertionSort (· ≤ ·)
  sourceBlock := input.sourceBlock
  firstSeenAt := some item.firstSeenAt
  lastActivityAt := some item.lastActivityAt
  expiresAt := input.now + discoveryFreshnessMs

def announcement (options : DiscoveryOptions) (input : EmissionInput) (item : TrackedItem)
    (scored : ScoreResult) : Announcement where
  data := opportunityData options input item scored
  mark := { at_ := input.now, score := scored.score, band := scored.band }
  alert :=
    if isAlertable scored then
      some
        { dedupe := .opportunity item.contract scored.band
          immediate := scored.band = .proposal
          collectionName := input.names item.contract }
    else none

/-- Quiet items are passed over. -/
def isActive (now : Time) (item : TrackedItem) : Bool :=
  now - item.lastActivityAt ≤ convergenceWindowMs

def announceItem (options : DiscoveryOptions) (input : EmissionInput) (item : TrackedItem) :
    Option Announcement :=
  if isActive input.now item ∧
      opportunityDue input item.lastEmit (scoreItem options input item) then
    some (announcement options input item (scoreItem options input item))
  else none

def markItem (item : TrackedItem) (announced : Option Announcement) : TrackedItem :=
  match announced with
  | some announcement => { item with lastEmit := some announcement.mark }
  | none => item

namespace DiscoveryMemory

/-- The marks change item by item, before anything is stored. -/
def markTracked (options : DiscoveryOptions) (input : EmissionInput) (memory : DiscoveryMemory) :
    DiscoveryMemory :=
  { memory with
    tracked := memory.tracked.map fun entry =>
      (entry.1, markItem entry.2 (announceItem options input entry.2)) }

def announcements (options : DiscoveryOptions) (input : EmissionInput)
    (memory : DiscoveryMemory) : List Announcement :=
  memory.tracked.filterMap fun entry => announceItem options input entry.2

/-! ## Announcing the calendar -/

/-- Drops that are over, far away or quiet are passed over. -/
def isListed (memory : DiscoveryMemory) (now : Time) (entry : String × CalendarItem) : Bool :=
  let drop := entry.2.drop
  let recentlyActive :=
    now - convergenceWindowMs ≤ ((memory.tracked.get entry.1).map TrackedItem.lastActivityAt).getD 0
  !((drop.endTime ≠ 0 && drop.endTime * 1000 ≤ now) ||
    (now < drop.startTime * 1000 && calendarHorizonMs < drop.startTime * 1000 - now) ||
    (drop.startTime * 1000 ≤ now && !recentlyActive && entry.2.lastEmit.isSome))

def calendarChanged (entry : CalendarItem) : Bool :=
  match entry.lastEmit with
  | none => true
  | some last => last.signature ≠ dropSignature entry.drop

def calendarDue (memory : DiscoveryMemory) (input : EmissionInput)
    (entry : String × CalendarItem) : Bool :=
  memory.isListed input.now entry &&
    (calendarChanged entry.2 ||
      (entry.2.lastEmit.any fun last => refreshDue input last.at_))

def calendarData (options : DiscoveryOptions) (input : EmissionInput) (contract : String)
    (drop : DropSnapshot) : CalendarData where
  chainId := options.chainId
  contract := contract
  openingAt := if 0 < drop.startTime then some (drop.startTime * 1000) else none
  closingAt := if 0 < drop.endTime then some (drop.endTime * 1000) else none
  phase := if input.now < drop.startTime * 1000 then .upcoming else .active
  priceWei := drop.priceWei
  maxPerWallet := drop.maxPerWallet
  maxSupply := drop.maxSupply
  totalMinted := drop.totalMinted
  sourceBlock := input.sourceBlock
  expiresAt := input.now + discoveryFreshnessMs

def markCalendar (memory : DiscoveryMemory) (input : EmissionInput) : DiscoveryMemory :=
  { memory with
    calendar := memory.calendar.map fun entry =>
      (entry.1,
        if memory.calendarDue input entry then
          { entry.2 with
            lastEmit := some { at_ := input.now, signature := dropSignature entry.2.drop } }
        else entry.2) }

def calendarEvents (options : DiscoveryOptions) (memory : DiscoveryMemory)
    (input : EmissionInput) : List CalendarData :=
  (memory.calendar.filter (memory.calendarDue input)).map fun entry =>
    calendarData options input entry.1 entry.2.drop

/-- The window of an opening reminder, from the whole minutes before it. -/
def openingWindow (now : Time) (drop : DropSnapshot) : Option OpeningWindow :=
  let minutes := (2 * (drop.startTime * 1000 - now) + 60000) / 120000
  if minutes ≤ 30 then some .halfHour else if minutes ≤ 360 then some .sixHours else none

/-- The alert of a listed drop: its price is above the limit, or it opens soon. -/
def calendarAlert (options : DiscoveryOptions) (input : EmissionInput)
    (entry : String × CalendarItem) (memory : DiscoveryMemory) :
    Option DiscoveryAlert × DiscoveryMemory :=
  let drop := entry.2.drop
  if options.budgetPerNftWei < drop.priceWei then
    if memory.priceAlertIdentities.get entry.1 = some drop.priceWei then (none, memory)
    else
      (some { dedupe := .priceAboveLimit entry.1 drop.priceWei
              collectionName := input.names entry.1 }, memory)
  else if input.now < drop.startTime * 1000 ∧ 0 < drop.maxPerWallet then
    match openingWindow input.now drop with
    | none => (none, memory)
    | some window =>
        let allowed := memory.openingAlertAllowed input.now
        if allowed.1 then
          (some { dedupe := .openingSoon entry.1 drop.startTime window
                  collectionName := input.names entry.1 }, allowed.2)
        else (none, allowed.2)
  else (none, memory)

/-- The alerts of the listed drops, in their order. -/
def calendarAlerts (options : DiscoveryOptions) (input : EmissionInput) :
    List (String × CalendarItem) → DiscoveryMemory → List DiscoveryAlert × DiscoveryMemory
  | [], memory => ([], memory)
  | entry :: rest, memory =>
      let alert := calendarAlert options input entry memory
      let others := calendarAlerts options input rest alert.2
      (alert.1.toList ++ others.1, others.2)

/-- The memory after an alert was handed to the sink: a recorded price alert is not raised
again, and one that the sink failed on is. -/
def raiseAlert (sink : DiscoveryAlert → Option Bool) (memory : DiscoveryMemory)
    (alert : DiscoveryAlert) : DiscoveryMemory :=
  match alert.dedupe, sink alert with
  | .priceAboveLimit contract priceWei, some _ =>
      let identities := memory.priceAlertIdentities.set contract priceWei
      { memory with
        priceAlertIdentities :=
          if maxCalendar < identities.length then identities.tail else identities }
  | _, _ => memory

/-! ## Counting and enriching -/

/-- A wallet that is watched and paid for its own mint. -/
def isSelfPaid (watched : List String) (mint : ObservedMint) : Bool :=
  watched.contains (toLowerCase mint.minter) && toLowerCase mint.minter = toLowerCase mint.payer

/-- The durable event of a watched mint, for logs with a transaction hash. -/
def watchedMintEvent (options : DiscoveryOptions) (watched : List String) (at_ : Time)
    (mint : ObservedMint) : Option DiscoveryEvent :=
  match mint.txHash with
  | some hash =>
      if isSelfPaid watched mint ∧ isTransactionHash hash then
        some
          { id := .watchedMint options.chainId (toLowerCase hash) mint.logIndex
            at_ := at_
            data := .watchedMint options.chainId mint.nftContract.lower (toLowerCase mint.minter)
              hash mint.blockNumber }
      else none
  | none => none

/-- A mint that is counted for the first time. -/
def countMint (watched : List String) (at_ : Time) (mint : ObservedMint)
    (memory : DiscoveryMemory) : DiscoveryMemory :=
  let (item, memory) := memory.track mint.nftContract at_
  let quantity := min mint.quantity 10000
  { memory with
    tracked := memory.tracked.set item.contract
      { item with
        mints := item.mints ++ [{ at_ := at_, quantity := quantity }]
        totalMinted := item.totalMinted + quantity
        priceWei := some mint.unitPriceWei
        lastActivityAt := at_
        watched :=
          if isSelfPaid watched mint then item.watched.set (toLowerCase mint.minter) at_
          else item.watched } }

def touch (touched : List String) (contract : String) : List String :=
  if contract ∈ touched then touched else touched ++ [contract]

/-- A watched wallet received an NFT. -/
def countReceived (watched : List String) (at_ : Time)
    (state : DiscoveryMemory × List String) (mint : ObservedWatchedMint) :
    DiscoveryMemory × List String :=
  if watched.contains (toLowerCase mint.recipient) = false then state
  else
    let sighting := state.1.firstSighting (sightingOf .watched mint.txHash mint.logIndex)
    if sighting.1 = false then (sighting.2, state.2)
    else
      let (item, memory) := sighting.2.track mint.nftContract at_
      ({ memory with
          tracked := memory.tracked.set item.contract
            { item with received := item.received.set (toLowerCase mint.recipient) at_ } },
        touch state.2 item.contract)

/-- A drop was published or changed. -/
def updateDrop (at_ : Time) (memory : DiscoveryMemory) (update : ObservedDropUpdate) :
    DiscoveryMemory :=
  let contract := update.nftContract.lower
  match sanitizeDrop
      { nftContract := contract, priceWei := update.mintPriceWei, startTime := update.startTime
        endTime := update.endTime, maxPerWallet := update.maxPerWallet } with
  | none => memory
  | some drop =>
      let memory := memory.putCalendar contract drop
      match memory.tracked.get contract with
      | some item =>
          { memory with
            tracked := memory.tracked.set contract
              { item with drop := some drop, dropReadAt := some at_ } }
      | none => memory

/-- What the chain answers about a contract; nothing where a read throws. -/
structure EnrichReads where
  hasCode : String → Option (Option Bool)
  readDrop : String → Option (Option DropSnapshot)

/-- The code of a contract is read until it is known. -/
def enrichCode (reads : EnrichReads) (item : TrackedItem) : Option TrackedItem :=
  match item.hasCode with
  | some _ => some item
  | none => (reads.hasCode item.contract).map fun code => { item with hasCode := code }

/-- The drop of a contract, read again when the last reading is old. -/
def enrichDrop (now : Time) (raw : Option DropSnapshot) (item : TrackedItem)
    (memory : DiscoveryMemory) : DiscoveryMemory :=
  match raw.bind sanitizeDrop with
  | none =>
      { memory with
        tracked := memory.tracked.set item.contract { item with dropReadAt := some now } }
  | some drop =>
      { memory with
        tracked := memory.tracked.set item.contract
          { item with
            dropReadAt := some now
            drop := some drop
            priceWei := item.priceWei.or (some drop.priceWei) } }.putCalendar item.contract drop

/-- Enrich one contract, and say whether the reads went through. -/
def enrichContract (now : Time) (reads : EnrichReads) (memory : DiscoveryMemory)
    (contract : String) : Bool × DiscoveryMemory :=
  match memory.tracked.get contract with
  | none => (true, memory)
  | some item =>
      match enrichCode reads item with
      | none => (false, memory)
      | some item =>
          let memory := { memory with tracked := memory.tracked.set contract item }
          if item.dropReadAt.all (fun readAt => discoveryFreshnessMs < now - readAt) then
            match reads.readDrop contract with
            | none => (false, memory)
            | some raw => (true, enrichDrop now raw item memory)
          else (true, memory)

/-- Enrich the touched contracts until a read throws. -/
def enrich (now : Time) (reads : EnrichReads) :
    List String → DiscoveryMemory → Bool × DiscoveryMemory
  | [], memory => (true, memory)
  | contract :: rest, memory =>
      let enriched := enrichContract now reads memory contract
      if enriched.1 then enrich now reads rest enriched.2 else enriched

end DiscoveryMemory

end MintBot
