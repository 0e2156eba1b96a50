import MintBot.Dashboard.Records
import MintBot.Library.Listing

/-!
# The opportunities and the calendar

Both views list the history of the events with one entry for each key.  The opportunities show the
newest event of an opportunity, the calendar shows its campaigns and then every event whose
calendar id is not listed yet.
-/

namespace MintBot.Dashboard

open Json Listing

/-! ## Entries -/

/-- A price in wei, none where it is unknown. -/
structure SourcedAmount where
  amount : Option Nat
  freshness : Freshness
  deriving DecidableEq

structure SourcedQuantity where
  value : Option Nat
  freshness : Freshness
  deriving DecidableEq

def sourcedAmount (value : Option Int) (freshness : Freshness) : SourcedAmount where
  amount := value.bind fun value => if value < 0 then none else some value.toNat
  freshness := freshness

structure OpportunityReadModel where
  id : Text
  projectName : Option Text
  contract : Option Text
  chainId : Nat
  disposition : Text
  openingAt : Option Text
  price : Option SourcedAmount
  score : Option ℚ
  scoreFreshness : Freshness
  freshness : Freshness
  deriving DecidableEq

/-- The facts of a calendar entry that change from event to event. -/
structure CalendarFacts where
  openingAt : Option Text
  closingAt : Option Text
  phase : Option Text
  price : SourcedAmount
  supply : SourcedQuantity
  freshness : Freshness
  deriving DecidableEq

structure CalendarEntry where
  id : Text
  projectName : Option Text
  contract : Option Text
  chainId : Nat
  facts : CalendarFacts
  perWalletLimit : SourcedQuantity
  method : Option Text
  publicStatus : Text
  sourceAuthority : Text
  deriving DecidableEq

def dispositions : List Text :=
  ["discovered", "evaluating", "scored", "notified", "approved", "promoted", "rejected",
    "expired"].map ascii

def dispositionValue (value : Option Fact) : Option Text :=
  (stringValue value).filter fun text => text ∈ dispositions

def publicStatusValue (value : Option Fact) : Text :=
  ((stringValue value).filter fun text =>
    text ∈ ["public", "fcfs", "allowlist"].map ascii).getD (ascii "unknown")

/-- The chain of an event. -/
def eventChain (event : EventRecord) : Nat :=
  if integerValue (event.data "chainId") = some 4663 then 4663 else 1

/-- When an event was observed. -/
def observedAt (context : ProjectionContext) (event : EventRecord) : Text :=
  (validIso context.host (some event.at_)).getD (context.host.toISOString context.now)

def eventFreshness (context : ProjectionContext) (event : EventRecord) : Freshness :=
  classifyFreshness context.host (some (observedAt context event))
    (stringValue (event.data "expiresAt")) context.now

def opportunityPrefix : Text :=
  ascii "opportunity_"

def opportunityId (event : EventRecord) : Text :=
  (stringValue (event.data "opportunityId")).getD event.id

def opportunityFromEvent (context : ProjectionContext) (event : EventRecord) :
    OpportunityReadModel :=
  let chainId := eventChain event
  let scoreFreshness := eventFreshness context event
  { id := opportunityId event
    projectName := stringValue (event.data "projectName")
    contract := addressValue (event.data "contract")
    chainId := chainId
    disposition := (dispositionValue (event.data "disposition")).getD
      (event.type.drop opportunityPrefix.length)
    openingAt := validIso context.host (stringValue (event.data "openingAt"))
    price := (event.data "priceWei").map fun price =>
      sourcedAmount ((bigintValue (some price)).map Int.ofNat) scoreFreshness
    score := numberValue (event.data "score")
    scoreFreshness := scoreFreshness
    freshness := aggregateFreshness [scoreFreshness,
      chainGateFreshness context chainId (stringValue (event.data "evidenceId"))] }

def calendarId (event : EventRecord) : Text :=
  (stringValue (event.data "id")).getD event.id

/-- What a calendar entry shows of an event. -/
def calendarFacts (context : ProjectionContext) (event : EventRecord) : CalendarFacts :=
  let freshness := eventFreshness context event
  { openingAt := validIso context.host (stringValue (event.data "openingAt"))
    closingAt := validIso context.host (stringValue (event.data "closingAt"))
    phase := stringValue (event.data "phase")
    price := sourcedAmount ((bigintValue (event.data "priceWei")).map Int.ofNat) freshness
    supply := ⟨bigintValue (event.data "maxSupply"), freshness⟩
    freshness := freshness }

def calendarFromEvent (context : ProjectionContext) (event : EventRecord) : CalendarEntry where
  id := calendarId event
  projectName := stringValue (event.data "projectName")
  contract := addressValue (event.data "contract")
  chainId := eventChain event
  facts := calendarFacts context event
  perWalletLimit := ⟨bigintValue (event.data "maxPerWallet"), eventFreshness context event⟩
  method := stringValue (event.data "method")
  publicStatus := publicStatusValue (event.data "publicStatus")
  sourceAuthority :=
    if event.data "sourceAuthority" = some (.text (ascii "external_source")) then
      ascii "external_source"
    else if event.data "sourceAuthority" = some (.text (ascii "on_chain")) then ascii "on_chain"
    else ascii "operator_record"

/-- `haystack.includes(needle)` -/
def includes (haystack needle : Text) : Bool :=
  haystack.tails.any fun rest => needle.isPrefixOf rest

def calendarFromCampaign (context : ProjectionContext) (campaign : Campaign) : CalendarEntry :=
  let evidence := chainEvidence context campaign.chainId campaign.evidenceId
  let freshness := (evidence.map (evidenceFreshness context)).getD UNKNOWN_FRESHNESS
  { id := campaign.id
    projectName := none
    contract := some campaign.contract
    chainId := campaign.chainId
    facts :=
      { openingAt := none
        closingAt := none
        phase := none
        price := sourcedAmount (some campaign.mintPriceWei) freshness
        supply := ⟨none, freshness⟩
        freshness := freshness }
    perWalletLimit := ⟨none, freshness⟩
    method := some campaign.strategy
    publicStatus :=
      if includes campaign.strategy (ascii "public") then ascii "public" else ascii "unknown"
    sourceAuthority := if evidence.isSome then ascii "on_chain" else ascii "operator_record" }

/-! ## Pages -/

/-- The numbers of a request, none where they are not there or no integers. -/
structure ProjectionRequest where
  limit : Option Int := none
  cursor : Option Int := none

structure ProjectionResult (α : Type) where
  data : List α
  issues : List String
  freshness : Freshness
  nextCursor : Option Text
  deriving DecidableEq

/-- `(value).toString()` -/
def numberText (value : Nat) : Text :=
  (naturalDigits value).map digitUnit

/-- How many items a page holds. -/
def pageLimit (request : ProjectionRequest) (length : Nat) : Nat :=
  match request.limit with
  | some limit => if lastSafeInteger < limit ∨ limit ≤ 0 then length else limit.toNat
  | none => length

def pageCursor (request : ProjectionRequest) : Nat :=
  match request.cursor with
  | some cursor => if lastSafeInteger < cursor ∨ cursor < 0 then 0 else cursor.toNat
  | none => 0

def pageItems {α : Type} (values : List α) (request : ProjectionRequest) : List α × Option Text :=
  let result := page values (pageLimit request values.length) (pageCursor request)
  (result.1, result.2.map numberText)

/-- What the transport makes of a number in an address: `^\d+$`, safe, and not too small. -/
def numberParam (value : Text) (minimum : Int) : Option Int :=
  (digitsValue value).bind fun parsed =>
    if (parsed : Int) ≤ lastSafeInteger ∧ minimum ≤ parsed then some (parsed : Int) else none

/-! ## Views -/

def opportunityEvents (context : ProjectionContext) : List EventRecord :=
  inOrder context.host
    (context.state.events.filter fun event => opportunityPrefix.isPrefixOf event.type)

/-- `latest` -/
def latest (events : List EventRecord) : OrderedMap Text EventRecord :=
  lastPerKey opportunityId (fun event kept => TextLe kept.at_ event.at_) events

def opportunityEntries (context : ProjectionContext) : List OpportunityReadModel :=
  (latest (opportunityEvents context)).map fun entry => opportunityFromEvent context entry.2

def projectOpportunities (context : ProjectionContext) (request : ProjectionRequest) :
    ProjectionResult OpportunityReadModel :=
  if opportunityEvents context = [] then
    { data := []
      issues := ["OPPORTUNITY_SOURCE_UNAVAILABLE"]
      freshness := UNKNOWN_FRESHNESS
      nextCursor := none }
  else
    let entries := opportunityEntries context
    let items := pageItems entries request
    { data := items.1
      issues := []
      freshness := aggregateFreshness (entries.map OpportunityReadModel.freshness)
      nextCursor := items.2 }

def calendarTypes : List Text :=
  ["calendar_entry", "calendar_updated"].map ascii

def calendarEvents (context : ProjectionContext) : List EventRecord :=
  inOrder context.host (context.state.events.filter fun event => event.type ∈ calendarTypes)

/-- The campaigns, and an entry for each event whose id is not listed. -/
def listedEntries (context : ProjectionContext) : List CalendarEntry :=
  (calendarEvents context).foldl
    (listNew calendarId CalendarEntry.id (calendarFromEvent context))
    (context.state.campaigns.map (calendarFromCampaign context))

/-- `entries.sort(..)` -/
def calendarEntries (context : ProjectionContext) : List CalendarEntry :=
  (listedEntries context).insertionSort fun left right =>
    (context.host.localeCompare left.id right.id).isLE

def projectCalendar (context : ProjectionContext) (request : ProjectionRequest) :
    ProjectionResult CalendarEntry :=
  if context.state.campaigns = [] ∧ calendarEvents context = [] then
    { data := []
      issues := ["CALENDAR_SOURCE_UNAVAILABLE"]
      freshness := UNKNOWN_FRESHNESS
      nextCursor := none }
  else
    let entries := calendarEntries context
    let items := pageItems entries request
    { data := items.1
      issues := (entries.filter fun entry => entry.facts.openingAt = none).map fun _ =>
        "CALENDAR_TIME_UNKNOWN"
      freshness := aggregateFreshness (entries.map fun entry => entry.facts.freshness)
      nextCursor := items.2 }

end MintBot.Dashboard
