import Mathlib.Data.List.DropRight
import Mathlib.Logic.Function.Basic
import MintBot.Funding.Plan
import MintBot.Library.Machine
import MintBot.Watcher.Judge

/-!
# The fleet watcher

A watcher keeps a baseline for every wallet it watches.  Baselines come in
through four doors: the loader of a fresh process, the owner's accept events,
the verdict on a reading, and the proof of a treasury return.  A tick is cut
into the pieces between which other processes may commit: it opens with the
loader and the readings, takes in the accepts, judges one wallet after the other
and ends with the left-over balances.  The pieces of a real tick come in this
order and stop early when one throws; what is proved here holds in every order.
-/

namespace MintBot

open Fallible

/-! ## Events and reports -/

inductive FleetWatchFinding
  | unknownActivity
  | unexplainedFall
  | riseAboveLimit
  | rpcInconsistent
  | watcherBlind
  | baselineAccepted
  | acceptRejected
  deriving DecidableEq, Repr

/-- The event types the watcher writes or looks for. -/
inductive WatchEventType
  | baseline
  | accept
  | finding
  | treasuryReturnVerified
  | fundingRequested
  | kill
  | other
  deriving DecidableEq, Repr

/-- The data of an event, field by field.  A field of another type is absent, and
so is a chain number that is not a supported chain's. -/
structure FleetWatchData where
  chainId : Option ChainId := none
  address : Option String := none
  nonce : Option Number := none
  balanceWei : Option String := none
  observedAt : Option Time := none
  excess : Option ExcessState := none
  kind : Option FleetWatchFinding := none
  /-- The wallets of the items of a funding request. -/
  items : List String := []
  deriving DecidableEq, Repr

structure WatchEvent where
  id : String
  type : WatchEventType
  date : Time
  data : FleetWatchData
  deriving DecidableEq, Repr

/-- What distinguishes two reports of one finding on one wallet. -/
inductive FindingIdentity
  | day (number : Int)
  | inconsistentDay (number : Int)
  | accept (eventId : String)
  | rise (balanceWei : Wei) (day : Int)
  | stop (nonce : Int) (balanceWei : Wei) (day : Int) (stoppedAt : Option Time)
      (repeated killFailed : Bool)
  deriving DecidableEq, Repr

inductive ReportPriority
  | immediate
  | grouped
  deriving DecidableEq, Repr

structure FindingReport where
  finding : FleetWatchFinding
  target : WatchTarget
  identity : FindingIdentity
  priority : ReportPriority
  killFailed : Bool := false
  repeated : Bool := false
  deriving DecidableEq, Repr

structure WatchTickResult where
  checked : Nat := 0
  failed : Nat := 0
  findings : List (WatchKey × FleetWatchFinding) := []
  killed : Bool := false
  killFailed : Bool := false
  deriving DecidableEq, Repr

def watchBlindAfterFailures : Nat := 3
def dayMs : Int := 86400000
def baselineRefreshMs : Int := dayMs
def futureToleranceMs : Int := 300000

/-- `Math.floor(now.getTime() / DAY_MS)`. -/
def dayOf (now : Time) : Int :=
  now / dayMs

structure FleetWatcherOptions where
  targets : List WatchTarget
  ceilings : ChainId → Option BalanceCeiling

/-! ## The watcher and the store -/

/-- How a baseline came to be: from a reading, from an accept event that was
taken in beside the readings of a tick, or from an event that a fresh process
loaded without either. -/
inductive Adoption
  | read (reading : WalletReading)
  | accepted (event : WatchEvent) (now : Time) (reading : Option WalletReading)
  | loaded (event : WatchEvent)
  deriving DecidableEq, Repr

/-- What statements about runs remember.  No branch of the watcher reads it. -/
structure WatchHistory where
  /-- How the baseline in use was adopted. -/
  adoption : WatchKey → Option Adoption
  /-- How the baseline that an event records was adopted. -/
  origin : String → Option Adoption
  /-- Every reading of a wallet that was judged. -/
  readings : List (WatchKey × WalletReading)
  /-- How many events the last snapshot of `syncAccepts` held. -/
  synced : Nat

/-- The events of the store, the memory of the watcher's process, the tick that
is going on, and the reports sent so far. -/
structure WatchState where
  events : List WatchEvent
  loaded : Bool
  baselines : WatchKey → Option WalletBaseline
  lastFinding : WatchKey → Option (FleetWatchFinding × Int × Wei)
  readFailures : WatchKey → Nat
  inconsistent : WatchKey → Nat
  /-- The watermark of the accept scan; absent is the empty text. -/
  lastAcceptSyncAt : Option Time
  now : Time
  observations : List (WatchTarget × WalletReading)
  result : WatchTickResult
  reports : List FindingReport
  history : WatchHistory

namespace WatchState

/-- A fresh process on a store. -/
def opened (events : List WatchEvent) (reports : List FindingReport)
    (history : WatchHistory) : WatchState where
  events := events
  loaded := false
  baselines := fun _ => none
  lastFinding := fun _ => none
  readFailures := fun _ => 0
  inconsistent := fun _ => 0
  lastAcceptSyncAt := none
  now := 0
  observations := []
  result := {}
  reports := reports
  history := { history with adoption := fun _ => none }

/-- The first process, on an empty store. -/
def initial : WatchState :=
  opened [] []
    { adoption := fun _ => none, origin := fun _ => none, readings := [], synced := 0 }

/-- `finding`: hand a report to the alert sink, whose answer is not read. -/
def report (state : WatchState) (sent : FindingReport) : WatchState :=
  { state with reports := state.reports ++ [sent] }

/-- `this.baselines.set`. -/
def adopt (state : WatchState) (key : WatchKey) (baseline : WalletBaseline)
    (adoption : Adoption) : WatchState :=
  { state with
    baselines := Function.update state.baselines key (some baseline)
    history := { state.history with
      adoption := Function.update state.history.adoption key (some adoption) } }

/-- `this.lastFinding.delete`. -/
def forgetFinding (state : WatchState) (key : WatchKey) : WatchState :=
  { state with lastFinding := Function.update state.lastFinding key none }

/-- `this.lastFinding.set`. -/
def keepFinding (state : WatchState) (key : WatchKey)
    (findingKey : FleetWatchFinding × Int × Wei) : WatchState :=
  { state with lastFinding := Function.update state.lastFinding key (some findingKey) }

/-- A reading of a wallet is judged. -/
def observed (state : WatchState) (key : WatchKey) (reading : WalletReading) : WatchState :=
  { state with
    history := { state.history with readings := state.history.readings ++ [(key, reading)] } }

/-- The identifier of an event is the key of its table. -/
def Unused (state : WatchState) (eventId : String) : Prop :=
  ∀ event ∈ state.events, event.id ≠ eventId

instance (state : WatchState) (eventId : String) : Decidable (state.Unused eventId) := by
  unfold Unused
  infer_instance

/-- An event is added to the store. -/
def push (state : WatchState) (event : WatchEvent) (adoption : Option Adoption) : WatchState :=
  { state with
    events := state.events ++ [event]
    history := { state.history with
      origin := Function.update state.history.origin event.id adoption } }

end WatchState

/-- A transaction that writes one event: its identifier and date, and whether
the store takes it. -/
structure StoreWrite where
  eventId : String
  date : Time
  accepted : Bool
  deriving DecidableEq, Repr

/-- The transaction commits. -/
def StoreWrite.Commits (write : StoreWrite) (state : WatchState) : Prop :=
  write.accepted = true ∧ state.Unused write.eventId

instance (write : StoreWrite) (state : WatchState) : Decidable (write.Commits state) := by
  unfold StoreWrite.Commits
  infer_instance

/-- `persist`: one event, unless the transaction fails. -/
def WatchState.persist (state : WatchState) (write : StoreWrite) (type : WatchEventType)
    (data : FleetWatchData) (adoption : Option Adoption) : WatchState :=
  if write.Commits state then
    state.push { id := write.eventId, type := type, date := write.date, data := data } adoption
  else state

/-- The data of a baseline event. -/
def WalletBaseline.data (baseline : WalletBaseline) (key : WatchKey) : FleetWatchData where
  chainId := some key.chainId
  address := some key.address
  nonce := some baseline.nonce
  balanceWei := some baseline.balanceWei
  observedAt := some baseline.observedAt
  excess := baseline.excess

/-! ## The loader -/

/-- The baseline that an event records for a wallet, when it has the types the
loader asks for. -/
def recordedBaseline (key : WatchKey) (event : WatchEvent) : Option WalletBaseline := do
  let chainId ← event.data.chainId
  let address ← event.data.address
  let nonce ← event.data.nonce
  let balanceWei ← event.data.balanceWei
  if (event.type = .baseline ∨ event.type = .accept) ∧
      (⟨chainId, toLowerCase address⟩ : WatchKey) = key then
    some
      { nonce := nonce
        balanceWei := balanceWei
        observedAt := event.data.observedAt.getD event.date
        excess := event.data.excess }
  else none

/-- The event that the loader takes a wallet's baseline from: the newest one that
records one. -/
def loaderEvent (events : List WatchEvent) (key : WatchKey) : Option WatchEvent :=
  events.reverse.find? fun event => (recordedBaseline key event).isSome

/-- `load`.  The early end of the loop, when every wallet has its baseline, changes
nothing. -/
def load (options : FleetWatcherOptions) (state : WatchState) : WatchState :=
  if state.loaded then state
  else
    let source := fun key =>
      if state.baselines key = none ∧ key ∈ options.targets.map keyOf then
        loaderEvent state.events key
      else none
    { state with
      loaded := true
      baselines := fun key =>
        match source key with
        | some event => recordedBaseline key event
        | none => state.baselines key
      history := { state.history with
        adoption := fun key =>
          match source key with
          | some event => some ((state.history.origin event.id).getD (.loaded event))
          | none => state.history.adoption key } }

/-! ## The readings -/

/-- A reading that the tick takes. -/
def WalletReading.Valid (reading : WalletReading) : Prop :=
  0 ≤ reading.nonce ∧ reading.nonce ≤ maxSafeInteger ∧ 0 ≤ reading.balanceWei

instance (reading : WalletReading) : Decidable reading.Valid := by
  unfold WalletReading.Valid
  infer_instance

/-- Read one wallet; `answer` is absent when the read throws. -/
def observeWallet (now : Time) (state : WatchState) (target : WatchTarget)
    (answer : Option WalletReading) : WatchState :=
  match answer.filter fun reading => decide reading.Valid with
  | some reading =>
      { state with
        readFailures := Function.update state.readFailures (keyOf target) 0
        observations := state.observations ++ [(target, reading)]
        result := { state.result with checked := state.result.checked + 1 } }
  | none =>
      let failures := state.readFailures (keyOf target) + 1
      let state :=
        { state with
          readFailures := Function.update state.readFailures (keyOf target) failures
          result := { state.result with failed := state.result.failed + 1 } }
      if watchBlindAfterFailures ≤ failures then
        state.report
          { finding := .watcherBlind
            target := target
            identity := .day (dayOf now)
            priority := .immediate }
      else state

/-- The first part of `tick`: the loader, then one reading of every wallet. -/
def openTick (options : FleetWatcherOptions) (now : Time) (answers : List (Option WalletReading))
    (state : WatchState) : WatchState :=
  let started := { load options state with now := now, observations := [], result := {} }
  (options.targets.zip answers).foldl
    (fun state (target, answer) => observeWallet now state target answer) started

/-- The reading of a wallet in the tick that is going on. -/
def WatchState.reading (state : WatchState) (key : WatchKey) : Option WalletReading :=
  (state.observations.reverse.find? fun (target, _) => keyOf target = key).map Prod.snd

/-! ## The owner's accepts -/

/-- A well-formed accept event of a watched wallet. -/
structure FoundAccept where
  event : WatchEvent
  target : WatchTarget
  nonce : Number
  balanceWei : String
  deriving DecidableEq, Repr

/-- `/^\d{1,40}$/`. -/
def IsAmountText (text : String) : Prop :=
  1 ≤ text.toList.length ∧ text.toList.length ≤ 40 ∧ ∀ char ∈ text.toList, '0' ≤ char ∧ char ≤ '9'

instance (text : String) : Decidable (IsAmountText text) := by
  unfold IsAmountText
  have := List.decidableBAll (fun char => '0' ≤ char ∧ char ≤ '9') text.toList
  infer_instance

def foundAccept (options : FleetWatcherOptions) (event : WatchEvent) : Option FoundAccept := do
  let chainId ← event.data.chainId
  let address ← event.data.address
  let nonce ← event.data.nonce
  let balanceWei ← event.data.balanceWei
  let target ← options.targets.find? fun target =>
    keyOf target = (⟨chainId, toLowerCase address⟩ : WatchKey)
  if event.type = .accept ∧ IsAmountText balanceWei then
    some { event := event, target := target, nonce := nonce, balanceWei := balanceWei }
  else none

/-- The events that the scan looks at, oldest first: those after the last one that
is dated at the watermark or before. -/
def unseenEvents (watermark : Option Time) (events : List WatchEvent) : List WatchEvent :=
  events.rtakeWhile fun event => decide (∀ mark ∈ watermark, mark < event.date)

/-- The watermark after a scan: the newest date that is not in the future. -/
def nextWatermark (now : Time) (watermark : Option Time) (unseen : List WatchEvent) :
    Option Time :=
  unseen.reverse.foldl (fun newest event =>
    if event.date ≤ now + futureToleranceMs ∧ (∀ mark ∈ newest, mark < event.date) then
      some event.date
    else newest) watermark

/-- The accept is dated in the future, claims a transaction count above the
reading of its wallet, or carries no transaction count at all. -/
def FoundAccept.Refused (accept : FoundAccept) (now : Time) (reading : Option WalletReading) :
    Prop :=
  now + futureToleranceMs < accept.event.date ∨
    (∃ shown ∈ reading, (shown.nonce : Number) < accept.nonce) ∨
    ¬ IsSafeNumber accept.nonce ∨ accept.nonce < 0

instance (accept : FoundAccept) (now : Time) (reading : Option WalletReading) :
    Decidable (accept.Refused now reading) := by
  unfold FoundAccept.Refused
  infer_instance

/-- The accept is dated after the baseline of its wallet. -/
def FoundAccept.Due (accept : FoundAccept) (state : WatchState) : Prop :=
  ∀ known ∈ state.baselines (keyOf accept.target), known.observedAt < accept.event.date

instance (accept : FoundAccept) (state : WatchState) : Decidable (accept.Due state) := by
  unfold FoundAccept.Due
  infer_instance

def FoundAccept.baseline (accept : FoundAccept) : WalletBaseline where
  nonce := accept.nonce
  balanceWei := accept.balanceWei
  observedAt := accept.event.date
  excess := none

def FoundAccept.report (accept : FoundAccept) (finding : FleetWatchFinding) : FindingReport where
  finding := finding
  target := accept.target
  identity := .accept accept.event.id
  priority := .immediate

/-- The accept becomes the baseline of its wallet. -/
def adoptAccept (state : WatchState) (accept : FoundAccept) : WatchState :=
  let key := keyOf accept.target
  let adoption := Adoption.accepted accept.event state.now (state.reading key)
  let adopted := (state.adopt key accept.baseline adoption).forgetFinding key
  let recorded := { adopted with
    history := { adopted.history with
      origin := Function.update adopted.history.origin accept.event.id (some adoption) } }
  recorded.report (accept.report .baselineAccepted)

/-- One accept of the scan: passed over, rejected or adopted. -/
def takeAccept (state : WatchState) (accept : FoundAccept) : WatchState :=
  if ¬ accept.Due state then state
  else if accept.Refused state.now (state.reading (keyOf accept.target)) then
    state.report (accept.report .acceptRejected)
  else adoptAccept state accept

/-- The accepts that the scan of a state finds, in the order of the store. -/
def WatchState.foundAccepts (options : FleetWatcherOptions) (state : WatchState) :
    List FoundAccept :=
  (unseenEvents state.lastAcceptSyncAt state.events).filterMap (foundAccept options)

def syncAccepts (options : FleetWatcherOptions) (state : WatchState) : WatchState :=
  let unseen := unseenEvents state.lastAcceptSyncAt state.events
  let started := { state with
    lastAcceptSyncAt := nextWatermark state.now state.lastAcceptSyncAt unseen
    history := { state.history with synced := state.events.length } }
  (state.foundAccepts options).foldl takeAccept started

end MintBot
