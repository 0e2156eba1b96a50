import MintBot.Fire.Conflict

/-!
# The service that fires

One service takes taps of the owner, prepared automations and the passes of its schedulers.
All of them end in one pipeline, which holds the campaign in an in-memory guard for as long as
it runs.  The `/request` route writes requests of the same kind without that guard.  A run
interleaves the calls between their awaits with the live request processor, the owner's
commands and crashes.
-/

namespace MintBot

open Fallible

/-! ## The pipeline -/

structure FireInput where
  campaignId : CampaignId
  wallets : List String
  maxFeeGwei : Option Rat
  scheduleId : Option String := none
  automationEventId : Option String := none
  deriving DecidableEq

def FireInput.provenance (input : FireInput) : RequestProvenance :=
  match input.automationEventId, input.scheduleId with
  | some eventId, _ => .automation eventId
  | none, some scheduleId => .schedule scheduleId
  | none, none => .attended

def FireInput.feeAllowed (input : FireInput) : Bool :=
  match input.maxFeeGwei with
  | some gwei => 0 < gwei && gwei ≤ maxFeeCeilingGwei
  | none => false

/-- What the pipeline checks before its first await. -/
def FireStore.checkFire (store : FireStore) (input : FireInput) : Except Error FireCampaign := do
  refuse (input.scheduleId.isSome ∧ input.automationEventId.isSome) "FIRE_AUTHORITY_AMBIGUOUS"
  refuse (input.feeAllowed = false) "MAX_FEE_GWEI_INVALID: use more than 0 and at most 500"
  let campaign ← require (store.campaigns.get input.campaignId)
    "CAMPAIGN_NOT_FOUND: check the id (shown by /prepare)"
  refuse (campaign.dryRun = true) "LIVE_REQUIRES_NON_DRY_CAMPAIGN"
  refuse (store.killSwitchOn = true)
    "KILL_SWITCH_ON: release it first (/unlock, then /release); it is never released for you"
  match store.persistentConflict input.campaignId input.scheduleId with
  | some conflict => .error s!"FIRE_CONFLICT: {conflict}"
  | none => pure campaign

/-- What a call waits for. -/
inductive FireStage
  /-- The check of the host evidence, before the pipeline. -/
  | readying
  /-- The test mints. -/
  | simulating
  /-- The approval that comes before the request is written. -/
  | approving (requestedAt : Time)
  deriving DecidableEq

structure FireCall where
  input : FireInput
  stage : FireStage
  deriving DecidableEq

/-- The pipeline runs and holds the campaign. -/
def FireCall.Entered (call : FireCall) : Prop :=
  call.stage ≠ .readying

/-! ## The request route -/

/-- What a call of `requestSend` or `requestCreate` waits for. -/
inductive SendStage
  /-- The preview, whose phrase must be the reviewed one. -/
  | previewing (expectedPhrase : String)
  /-- The wallets. -/
  | choosing
  /-- The approval that comes before the request is written. -/
  | approving (requestedAt : Time)
  deriving DecidableEq

structure SendCall where
  campaignId : CampaignId
  maxFeeGwei : Option Rat
  stage : SendStage
  deriving DecidableEq

structure FireServiceDeps where
  campaignDigest : FireCampaign → String
  /-- The host gave the check of its evidence. -/
  assertUnattendedReady : Bool

/-! ## Schedulers -/

inductive MintState
  | upcoming
  | isOpen
  | ended
  | unknown
  deriving DecidableEq

/-- What a pass read for a schedule. -/
structure ScheduleReadings where
  digest : String
  killSwitchOn : Bool

inductive PassStage
  | looping
  /-- Waits for the state of the mint. -/
  | reading (schedule : FireSchedule) (readings : ScheduleReadings)
  | firing (number : Nat)
  /-- Waits for an event to be recorded; when that throws, the pass ends unless it is caught. -/
  | recording (caught : Bool)

/-- A pass over the unclaimed schedules, with the time at which it began. -/
structure SchedulerPass where
  now : Time
  queue : List FireSchedule
  stage : PassStage := .looping

/-- A schedule that was fired, with what its pass went by.  No branch reads this. -/
structure ScheduledFire where
  schedule : FireSchedule
  tickAt : Time
  firedAt : Time
  readings : ScheduleReadings

/-! ## The machine -/

structure FireService where
  store : FireStore := {}
  inFlight : List CampaignId := []
  calls : Nat → Option FireCall := fun _ => none
  nextCall : Nat := 0
  sends : Nat → Option SendCall := fun _ => none
  nextSend : Nat := 0
  schedulers : Nat → Option SchedulerPass := fun _ => none
  /-- How the calls ended: with the id of the request, or with what was thrown. -/
  results : List (Nat × Except Error String) := []
  sendResults : List (Nat × Except Error String) := []
  fired : List ScheduledFire := []

inductive FireCommand
  | wait (milliseconds : Nat)
  | setKillSwitch (engaged : Bool)
  | setCampaign (campaign : FireCampaign)
  | removeCampaign (campaignId : CampaignId)
  | requestSend (campaignId : CampaignId) (maxFeeGwei : Option Rat) (expectedPhrase : String)
  | requestCreate (campaignId : CampaignId) (maxFeeGwei : Option Rat)
  | previewed (number : Nat) (phrase : Except Error String)
  /-- The wallets, after which the preview is made and the service must be ready. -/
  | chosen (number : Nat) (outcome : Except Error Unit)
  /-- The approval, or what was thrown; then the request is written under a new id. -/
  | sendApproved (number : Nat) (outcome : Except Error (String × List String))
  /-- A request that comes from somewhere else. -/
  | submit (request : LiveRunRequest)
  | request (requestId : String) (event : StoredRequest.Event)
  | openRun (run : FireRun)
  | moveOtherRun (runId : RunId) (target : CampaignState)
  | schedule (schedule : FireSchedule)
  | cancel (idOrShort : String)
  | cancelAllOpen
  | fireNow (campaignId : CampaignId) (wallets : List String) (maxFeeGwei : Option Rat)
  | fireAutonomous (campaignId : CampaignId) (wallets : List String) (maxFeeGwei : Option Rat)
      (eventId : String)
  | ready (number : Nat) (outcome : Except Error Unit)
  | simulated (number : Nat) (outcome : Except Error (List String))
  /-- The approval, or what was thrown; then the request is written under a new id. -/
  | approved (number : Nat) (outcome : Except Error (String × List String))
  | restart
  | tick (scheduler : Nat)
  | next (scheduler : Nat)
  | mintState (scheduler : Nat) (mint : MintState)
  | returned (scheduler : Nat)
  | recorded (scheduler : Nat) (throws : Bool)

def liveRequestLifetimeMs : Time := 1800000

namespace FireStore

def knows (store : FireStore) (requestId : String) : Prop :=
  ∃ row ∈ store.requests, row.request.id = requestId

instance (store : FireStore) (requestId : String) : Decidable (store.knows requestId) :=
  inferInstanceAs (Decidable (∃ row ∈ store.requests, row.request.id = requestId))

def insert (store : FireStore) (row : StoredRequest) : FireStore :=
  { store with requests := store.requests ++ [row] }

/-- An event reaches the row of a request. -/
def deliver (store : FireStore) (requestId : String) (event : StoredRequest.Event) : FireStore :=
  { store with
    requests := store.requests.map fun row =>
      if row.request.id = requestId then row.receive store.clock event else row }

def moveOtherRun (store : FireStore) (runId : RunId) (target : CampaignState) : FireStore :=
  { store with
    otherRuns := store.otherRuns.map fun run =>
      if run.id = runId ∧ run.state.mayBecome target = true then
        { run with state := target, updatedAt := store.clock }
      else run }

/-- What the database asks of a new schedule. -/
def accepts (store : FireStore) (schedule : FireSchedule) : Prop :=
  (∀ known ∈ store.schedules, known.id ≠ schedule.id) ∧
  schedule.windowFrom < schedule.windowUntil ∧
  schedule.windowUntil - schedule.windowFrom ≤ 21603600 ∧
  store.clock < schedule.windowUntil ∧
  schedule.windowFrom - store.clock ≤ 604800000 ∧
  schedule.wallets ≠ [] ∧ schedule.wallets.length ≤ 10 ∧
  (store.openSchedules none).length < 5

instance (store : FireStore) (schedule : FireSchedule) : Decidable (store.accepts schedule) := by
  unfold accepts
  infer_instance

end FireStore

namespace FireService

def setCall (state : FireService) (number : Nat) (call : Option FireCall) : FireService :=
  { state with calls := Function.update state.calls number call }

def setPass (state : FireService) (scheduler : Nat) (pass : Option SchedulerPass) : FireService :=
  { state with schedulers := Function.update state.schedulers scheduler pass }

/-- A call that is over, before the pipeline or after it. -/
def finish (state : FireService) (number : Nat) (outcome : Except Error String) : FireService :=
  { state.setCall number none with results := state.results ++ [(number, outcome)] }

/-- The `finally` block of the pipeline. -/
def leave (state : FireService) (number : Nat) (campaignId : CampaignId)
    (outcome : Except Error String) : FireService :=
  { state.finish number outcome with
    inFlight := state.inFlight.filter fun held => held ≠ campaignId }

/-- The call takes the guard and goes up to the first await of the pipeline. -/
def enter (state : FireService) (number : Nat) (input : FireInput) : FireService :=
  if input.campaignId ∈ state.inFlight then
    state.finish number (.error "FIRE_CONFLICT: this campaign is being fired right now")
  else
    match state.store.checkFire input with
    | .error error => state.leave number input.campaignId (.error error)
    | .ok _ =>
        { state.setCall number (some { input := input, stage := .simulating }) with
          inFlight := input.campaignId :: state.inFlight }

/-- A call that first waits for the check of the host evidence. -/
def await (state : FireService) (input : FireInput) : FireService :=
  { state.setCall state.nextCall (some { input := input, stage := .readying }) with
    nextCall := state.nextCall + 1 }

/-- The row that the pipeline writes. -/
def wiredRow (input : FireInput) (requestedAt : Time) (requestId : String)
    (wallets : List String) : StoredRequest where
  request :=
    { id := requestId
      campaignId := input.campaignId
      wallets := wallets
      maxFeeGwei := input.maxFeeGwei
      requestedAt := some requestedAt
      expiresAt := some (requestedAt + liveRequestLifetimeMs)
      provenance := some input.provenance }
  origin := .fireWiring

/-- The step of a call whose await is over. -/
def resume (state : FireService) (number : Nat) (call : FireCall) :
    FireCommand → Except Error FireService
  | .ready _ outcome => do
      refuse (call.stage ≠ .readying) "NOT_NOW"
      match outcome with
      | .ok _ => pure (state.enter number call.input)
      | .error error => pure (state.finish number (.error error))
  | .simulated _ outcome => do
      refuse (call.stage ≠ .simulating) "NOT_NOW"
      match outcome with
      | .ok [] =>
          pure (state.leave number call.input.campaignId
            (.error "SIMULATION_NOT_PASSED: no wallet passed the test mint"))
      | .ok _ =>
          pure (state.setCall number (some { call with stage := .approving state.store.clock }))
      | .error error => pure (state.leave number call.input.campaignId (.error error))
  | .approved _ outcome =>
      match call.stage, outcome with
      | .approving requestedAt, .ok (requestId, wallets) => do
          refuse (state.store.knows requestId) "UNIQUE"
          pure { state.leave number call.input.campaignId (.ok requestId) with
            store := state.store.insert (wiredRow call.input requestedAt requestId wallets) }
      | .approving _, .error error =>
          pure (state.leave number call.input.campaignId (.error error))
      | _, _ => .error "NOT_NOW"
  | _ => .error "NOT_NOW"

/-! ### The request route -/

def setSend (state : FireService) (number : Nat) (send : Option SendCall) : FireService :=
  { state with sends := Function.update state.sends number send }

def finishSend (state : FireService) (number : Nat) (outcome : Except Error String) :
    FireService :=
  { state.setSend number none with sendResults := state.sendResults ++ [(number, outcome)] }

/-- The beginning of `requestCreate`. -/
def create (state : FireService) (number : Nat) (campaignId : CampaignId)
    (maxFeeGwei : Option Rat) : FireService :=
  if state.store.openSchedules (some campaignId) ≠ [] then
    state.finishSend number (.error
      ("FIRE_CONFLICT: a scheduled mint is open for this campaign; " ++
        "cancel it first with /schedules and /cancel"))
  else
    state.setSend number
      (some { campaignId := campaignId, maxFeeGwei := maxFeeGwei, stage := .choosing })

/-- The row that `requestCreate` writes. -/
def sendRow (send : SendCall) (requestedAt : Time) (requestId : String) (wallets : List String) :
    StoredRequest where
  request :=
    { id := requestId
      campaignId := send.campaignId
      wallets := wallets
      maxFeeGwei := send.maxFeeGwei
      requestedAt := some requestedAt
      expiresAt := some (requestedAt + liveRequestLifetimeMs)
      provenance := some .attended }
  origin := .requestCreate

/-- The step of a call of the request route whose await is over. -/
def resumeSend (state : FireService) (number : Nat) (send : SendCall) :
    FireCommand → Except Error FireService
  | .previewed _ outcome =>
      match send.stage, outcome with
      | .previewing expectedPhrase, .ok phrase =>
          if phrase ≠ expectedPhrase then
            .ok (state.finishSend number (.error
              ("PLAN_CHANGED: the request changed since you reviewed it " ++
                "(the test mints expired or the amounts differ). Start again.")))
          else .ok (state.create number send.campaignId send.maxFeeGwei)
      | .previewing _, .error error => .ok (state.finishSend number (.error error))
      | _, _ => .error "NOT_NOW"
  | .chosen _ outcome =>
      match send.stage, outcome with
      | .choosing, .ok _ =>
          .ok (state.setSend number (some { send with stage := .approving state.store.clock }))
      | .choosing, .error error => .ok (state.finishSend number (.error error))
      | _, _ => .error "NOT_NOW"
  | .sendApproved _ outcome =>
      match send.stage, outcome with
      | .approving requestedAt, .ok (requestId, wallets) => do
          refuse (state.store.knows requestId) "UNIQUE"
          pure { state.finishSend number (.ok requestId) with
            store := state.store.insert (sendRow send requestedAt requestId wallets) }
      | .approving _, .error error => .ok (state.finishSend number (.error error))
      | _, _ => .error "NOT_NOW"
  | _ => .error "NOT_NOW"

/-! ### The passes of the schedulers -/

variable (deps : FireServiceDeps)

/-- Claims a schedule that cannot fire any more as expired. -/
def expire (state : FireService) (scheduler : Nat) (pass : SchedulerPass)
    (schedule : FireSchedule) : FireService :=
  let claim := state.store.claim schedule.id .expired
  { state.setPass scheduler
      (some { pass with stage := if claim.1 then .recording false else .looping }) with
    store := claim.2 }

/-- A pass takes up one schedule. -/
def consider (state : FireService) (scheduler : Nat) (pass : SchedulerPass)
    (schedule : FireSchedule) : FireService :=
  if pass.now < schedule.windowFrom then state.setPass scheduler (some pass)
  else if schedule.windowUntil ≤ pass.now then state.expire scheduler pass schedule
  else
    match state.store.campaigns.get schedule.campaignId with
    | none => state.expire scheduler pass schedule
    | some campaign =>
        let readings : ScheduleReadings :=
          { digest := deps.campaignDigest campaign, killSwitchOn := state.store.killSwitchOn }
        if readings.digest ≠ schedule.campaignDigest then state.expire scheduler pass schedule
        else if readings.killSwitchOn then
          state.setPass scheduler (some { pass with stage := .recording true })
        else state.setPass scheduler (some { pass with stage := .reading schedule readings })

/-- What `fireSchedule` checks before its first await. -/
def scheduledInput (state : FireService) (schedule : FireSchedule) : Except Error FireInput := do
  let price := (state.store.campaigns.get schedule.campaignId).map fun found =>
    found.campaign.mintPriceWei
  refuse (0 < price.getD 0) "PAID_FINAL_FIRE_REQUIRED"
  refuse (deps.assertUnattendedReady = false) "OPS_EVIDENCE_CHECK_REQUIRED"
  pure
    { campaignId := schedule.campaignId
      wallets := schedule.wallets
      maxFeeGwei := schedule.maxFeeGwei
      scheduleId := some schedule.id }

/-- The mint is open: the schedule is claimed before anything else happens. -/
def fire (state : FireService) (scheduler : Nat) (pass : SchedulerPass) (schedule : FireSchedule)
    (readings : ScheduleReadings) : FireService :=
  let claim := state.store.claim schedule.id .started
  if claim.1 then
    let fired : ScheduledFire :=
      { schedule := schedule
        tickAt := pass.now
        firedAt := state.store.clock
        readings := readings }
    let claimed := { state with store := claim.2, fired := state.fired ++ [fired] }
    match claimed.scheduledInput deps schedule with
    | .error _ => claimed.setPass scheduler (some { pass with stage := .recording true })
    | .ok input =>
        (claimed.await input).setPass scheduler
          (some { pass with stage := .firing state.nextCall })
  else state.setPass scheduler (some { pass with stage := .looping })

/-- The step of a pass. -/
def proceed (state : FireService) (scheduler : Nat) (pass : SchedulerPass) :
    FireCommand → Except Error FireService
  | .next _ =>
      match pass.stage, pass.queue with
      | .looping, [] => .ok (state.setPass scheduler none)
      | .looping, schedule :: rest =>
          .ok (state.consider deps scheduler { pass with queue := rest } schedule)
      | _, _ => .error "NOT_NOW"
  | .mintState _ mint =>
      match pass.stage, mint with
      | .reading schedule _, .ended => .ok (state.expire scheduler pass schedule)
      | .reading schedule readings, .isOpen =>
          .ok (state.fire deps scheduler pass schedule readings)
      | .reading _ _, _ => .ok (state.setPass scheduler (some { pass with stage := .looping }))
      | _, _ => .error "NOT_NOW"
  | .returned _ => do
      match pass.stage with
      | .firing number =>
          refuse (state.calls number).isSome "NOT_NOW"
          pure (state.setPass scheduler (some { pass with stage := .recording true }))
      | _ => .error "NOT_NOW"
  | .recorded _ throws =>
      match pass.stage with
      | .recording caught =>
          if throws && !caught then .ok (state.setPass scheduler none)
          else .ok (state.setPass scheduler (some { pass with stage := .looping }))
      | _ => .error "NOT_NOW"
  | _ => .error "NOT_NOW"

def step (command : FireCommand) (state : FireService) : Except Error FireService :=
  match command with
  | .wait milliseconds =>
      .ok { state with store := { state.store with clock := state.store.clock + milliseconds } }
  | .setKillSwitch engaged =>
      .ok { state with store := { state.store with killSwitchOn := engaged } }
  | .setCampaign campaign =>
      .ok { state with
        store := { state.store with
          campaigns := state.store.campaigns.set campaign.campaign.id campaign } }
  | .removeCampaign campaignId =>
      .ok { state with
        store := { state.store with campaigns := state.store.campaigns.delete campaignId } }
  | .requestSend campaignId maxFeeGwei expectedPhrase =>
      let send : SendCall :=
        { campaignId := campaignId
          maxFeeGwei := maxFeeGwei
          stage := .previewing expectedPhrase }
      .ok { state.setSend state.nextSend (some send) with nextSend := state.nextSend + 1 }
  | .requestCreate campaignId maxFeeGwei =>
      .ok ({ state with nextSend := state.nextSend + 1 }.create state.nextSend campaignId maxFeeGwei)
  | .previewed number _ | .chosen number _ | .sendApproved number _ => do
      let send ← require (state.sends number) "NOT_NOW"
      state.resumeSend number send command
  | .submit request => do
      refuse (state.store.knows request.id) "UNIQUE"
      pure { state with store := state.store.insert { request := request, origin := .elsewhere } }
  | .request requestId event =>
      .ok { state with store := state.store.deliver requestId event }
  | .openRun run =>
      .ok { state with store := { state.store with otherRuns := state.store.otherRuns ++ [run] } }
  | .moveOtherRun runId target =>
      .ok { state with store := state.store.moveOtherRun runId target }
  | .schedule schedule => do
      refuse (¬ state.store.accepts schedule) "fire schedule is incomplete or there are too many open"
      pure { state with
        store := { state.store with schedules := state.store.schedules ++ [schedule] } }
  | .cancel idOrShort => .ok { state with store := state.store.cancel idOrShort }
  | .cancelAllOpen => .ok { state with store := state.store.cancelAllOpen }
  | .fireNow campaignId wallets maxFeeGwei =>
      .ok ({ state with nextCall := state.nextCall + 1 }.enter state.nextCall
        { campaignId := campaignId, wallets := wallets, maxFeeGwei := maxFeeGwei })
  | .fireAutonomous campaignId wallets maxFeeGwei eventId => do
      refuse (deps.assertUnattendedReady = false) "OPS_EVIDENCE_CHECK_REQUIRED"
      pure (state.await
        { campaignId := campaignId
          wallets := wallets
          maxFeeGwei := maxFeeGwei
          automationEventId := some eventId })
  | .ready number _ | .simulated number _ | .approved number _ => do
      let call ← require (state.calls number) "NOT_NOW"
      state.resume number call command
  | .restart =>
      .ok { state with
        inFlight := []
        calls := fun _ => none
        sends := fun _ => none
        schedulers := fun _ => none }
  | .tick scheduler => do
      refuse (state.schedulers scheduler).isSome "BUSY"
      pure (state.setPass scheduler
        (some { now := state.store.clock, queue := state.store.unclaimedSchedules }))
  | .next scheduler | .mintState scheduler _ | .returned scheduler | .recorded scheduler _ => do
      let pass ← require (state.schedulers scheduler) "NOT_NOW"
      state.proceed deps scheduler pass command

end FireService

end MintBot
