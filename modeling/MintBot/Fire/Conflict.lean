import MintBot.LiveRequest.Processors

/-!
# What keeps a campaign from being fired

A campaign is fired by writing a live run request for it.  Before that the wiring looks in the
store for anything of the campaign that is still under way: a run, an open schedule, or a
request that the live request processor has not brought to an end.
-/

namespace MintBot

/-- A run with what the conflict check reads of it. -/
structure FireRun where
  id : RunId
  campaignId : CampaignId
  state : CampaignState
  updatedAt : Time
  deriving DecidableEq

/-- The states of a run that is in progress. -/
def CampaignState.isOpen : CampaignState → Bool
  | .armed | .active | .paused => true
  | _ => false

/-- Where a run may be moved; a move to the state it is in only renews its time. -/
def CampaignState.mayBecome (state next : CampaignState) : Bool :=
  state = next ||
    match state with
    | .armed => next = .active || next = .aborted || next = .failed
    | .active => next = .completed || next = .failed || next = .aborted
    | .completed => next = .failed
    | _ => false

/-- The route on which a request was created. -/
inductive RequestOrigin
  | fireWiring
  | requestCreate
  | elsewhere
  deriving DecidableEq

/-- A request row with its outcome row, the run armed for it and whether a result was recorded
for it. -/
structure StoredRequest where
  request : LiveRunRequest
  /-- No branch reads this. -/
  origin : RequestOrigin
  claim : Option (LiveOutcome × Time) := none
  run : Option FireRun := none
  resulted : Bool := false
  deriving DecidableEq

namespace StoredRequest

/-- Picked up to be run, with neither a run nor a result yet. -/
def Pending (row : StoredRequest) : Prop :=
  (∃ claimedAt, row.claim = some (.started, claimedAt)) ∧ row.run = none ∧ row.resulted = false

def HasOpenRun (row : StoredRequest) : Prop :=
  ∃ run, row.run = some run ∧ run.state.isOpen = true

/-- Waiting for the processor, being started by it, or with a run in progress. -/
def Unresolved (now : Time) (row : StoredRequest) : Prop :=
  (row.claim = none ∧ row.request.isExpired now = false) ∨ row.Pending ∨ row.HasOpenRun

/-- What the processor, the engine and the owner do to a request row and its run. -/
inductive Event
  | claim
  | cancel
  | arm (runId : RunId)
  | moveRun (target : CampaignState)
  | record
  deriving DecidableEq

/-- A row is claimed once, then armed or not, and then its result is recorded. -/
def receive (now : Time) (row : StoredRequest) : Event → StoredRequest
  | .claim =>
      if row.claim.isSome then row
      else { row with claim := some ((LiveRequestState.claimAt row.request now).1, now) }
  | .cancel => if row.claim.isSome then row else { row with claim := some (.cancelled, now) }
  | .arm runId =>
      match row.claim, row.run with
      | some (.started, _), none =>
          if row.resulted then row
          else
            { row with
              run := some
                { id := runId
                  campaignId := row.request.campaignId
                  state := .armed
                  updatedAt := now } }
      | _, _ => row
  | .moveRun target =>
      match row.run with
      | some run =>
          if run.state.mayBecome target then
            { row with run := some { run with state := target, updatedAt := now } }
          else row
      | none => row
  | .record => if row.claim.isSome then { row with resulted := true } else row

end StoredRequest

inductive FireScheduleOutcome
  | started
  | expired
  | cancelled
  deriving DecidableEq

/-- The owner's scheduled mint. -/
structure FireSchedule where
  id : String
  campaignId : CampaignId
  campaignDigest : String
  wallets : List String
  /-- What `Number` reads from the stored text, if that is finite. -/
  maxFeeGwei : Option Rat
  windowFrom : Time
  windowUntil : Time
  deriving DecidableEq

/-- A campaign with the flag that keeps it from being run live. -/
structure FireCampaign where
  campaign : Campaign
  dryRun : Bool := false
  deriving DecidableEq

/-! ## The store -/

structure FireStore where
  clock : Time := 0
  /-- The kill switch file exists, or the stored flag is set. -/
  killSwitchOn : Bool := false
  campaigns : OrderedMap CampaignId FireCampaign := []
  /-- In the order they were written. -/
  requests : List StoredRequest := []
  /-- The runs that no request led to. -/
  otherRuns : List FireRun := []
  schedules : List FireSchedule := []
  outcomes : OrderedMap String (FireScheduleOutcome × Time) := []

namespace FireStore

def runs (store : FireStore) : List FireRun :=
  store.requests.filterMap StoredRequest.run ++ store.otherRuns

/-- The schedules that nobody has claimed, the oldest first. -/
def unclaimedSchedules (store : FireStore) : List FireSchedule :=
  store.schedules.filter fun schedule => (store.outcomes.get schedule.id).isNone

/-- Those whose window has not ended, for one campaign or for all. -/
def openSchedules (store : FireStore) (campaignId : Option CampaignId) : List FireSchedule :=
  store.unclaimedSchedules.filter fun schedule =>
    store.clock < schedule.windowUntil && campaignId.all (schedule.campaignId = ·)

/-- Claims a schedule exactly once; the flag tells whether this claim won. -/
def claim (store : FireStore) (scheduleId : String) (outcome : FireScheduleOutcome) :
    Bool × FireStore :=
  if ∃ schedule ∈ store.schedules, schedule.id = scheduleId then
    if (store.outcomes.get scheduleId).isSome then (false, store)
    else (true, { store with outcomes := store.outcomes.set scheduleId (outcome, store.clock) })
  else (false, store)

/-- Claims every open schedule as cancelled, which a kill does. -/
def cancelAllOpen (store : FireStore) : FireStore :=
  (store.openSchedules none).foldl
    (fun store schedule => (store.claim schedule.id .cancelled).2) store

/-- Cancels the one open schedule with this identifier or this ending of it. -/
def cancel (store : FireStore) (idOrShort : String) : FireStore :=
  let found := (store.openSchedules none).filter fun schedule =>
    schedule.id = idOrShort ||
      (4 ≤ idOrShort.length && idOrShort.toList.isSuffixOf schedule.id.toList)
  match found with
  | [schedule] => (store.claim schedule.id .cancelled).2
  | _ => store

def unclaimedRequests (store : FireStore) : List StoredRequest :=
  store.requests.filter fun row => row.claim.isNone

/-- The newest requests, the newest first. -/
def recentLiveRunRequests (store : FireStore) (limit : Nat) : List StoredRequest :=
  store.requests.reverse.take (max 1 (min 50 limit))

/-- What the service hands to the wiring as the requests that it has picked up, each with the
time of its claim. -/
def startedRequests (store : FireStore) : List (StoredRequest × Time) :=
  (store.recentLiveRunRequests 20).filterMap fun row =>
    match row.claim with
    | some (.started, claimedAt) => some (row, claimedAt)
    | _ => none

/-- How long a finished run, or a request that is being started, holds a new fire back. -/
def holdMs : Time := 600000

/-- The last six characters of an identifier. -/
def shortId (id : String) : String :=
  String.ofList (id.toList.drop (id.length - 6))

/-- Why the campaign cannot be fired now, by what the store says. -/
def persistentConflict (store : FireStore) (campaignId : CampaignId)
    (ignoreScheduleId : Option String) : Option String :=
  match store.runs.find? fun run => run.campaignId = campaignId && run.state.isOpen with
  | some run => some s!"a run for this campaign is still in progress ({run.id}); see /runs"
  | none =>
  match store.runs.find? fun run =>
      run.campaignId = campaignId && run.state = .completed &&
        store.clock < run.updatedAt + holdMs with
  | some run =>
      some (s!"a run for this campaign finished a moment ago ({run.id}); " ++
        "check /runs before minting again, then retry in a few minutes")
  | none =>
  match (store.openSchedules (some campaignId)).find? fun schedule =>
      some schedule.id ≠ ignoreScheduleId with
  | some schedule =>
      some (s!"a scheduled mint ({shortId schedule.id}) is open for this campaign; " ++
        "cancel it first (send /cancel and tap it)")
  | none =>
  if store.unclaimedRequests.any fun row =>
      row.request.campaignId = campaignId && row.request.expiresAt.isSome &&
        !row.request.isExpired store.clock then
    some "a live request for this campaign is waiting for the service; see /requests"
  else
    match store.startedRequests.find? fun started =>
        started.1.request.campaignId = campaignId && !started.1.resulted &&
          store.clock < started.2 + holdMs with
    | some started =>
        some (s!"a live request for this campaign ({shortId started.1.request.id}) " ++
          "is being started by the service; see /requests")
    | none => none

end FireStore

end MintBot
