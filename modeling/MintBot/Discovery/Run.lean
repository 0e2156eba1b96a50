import MintBot.Discovery.Tick

/-!
# The runs of discovery

A tick stops between two of its writes at one of the points below.  Every write may fail,
and the process may crash at every point.
-/

namespace MintBot

open Fallible Machine

/-- The local variables of a tick. -/
structure TickLocals where
  head : Int
  watched : List String
  fromBlock : Int
  scans : Nat := 0
  touched : List String := []
  /-- The last block of the last slice. -/
  toBlock : Option Int := none

/-- A slice that was read from the chain. -/
structure CompletedRead where
  watched : List String
  scan : ChainScan

/-- Where a service stands. -/
inductive TickPoint
  | idle
  /-- The blocks before `resume` are given up; this is not recorded yet. -/
  | skipping (locals : TickLocals) (resume : Int)
  /-- It is recorded, the cursor is not moved yet. -/
  | skipped (locals : TickLocals) (resume : Int)
  | scanning (locals : TickLocals)
  /-- The mints of a slice that are still to be counted. -/
  | counting (locals : TickLocals) (scan : ChainScan) (at_ : Time) (rest : List ObservedMint)
  | enriching (locals : TickLocals) (source : Int)
  /-- The opportunities, and then the calendar, are announced; after a slice the cursor is
  stored behind them. -/
  | announcing (locals : TickLocals) (refresh : Bool) (source : Int) (slice : Bool)
  | listing (locals : TickLocals) (refresh : Bool) (source : Int) (slice : Bool)
  | advancing (locals : TickLocals) (source : Int)
  | pruning

/-- The locals of a tick that is about to read a slice. -/
def TickPoint.scanning? : TickPoint → Option TickLocals
  | .scanning locals => some locals
  | _ => none

/-- The mint whose turn it is. -/
def TickPoint.nextMint? : TickPoint → Option (TickLocals × ObservedMint)
  | .counting locals _ _ (mint :: _) => some (locals, mint)
  | _ => none

structure DiscoveryProcess where
  memory : DiscoveryMemory := {}
  point : TickPoint := .idle

structure DiscoveryState where
  events : List DiscoveryEvent := []
  cursor : Option Int := none
  process : Option DiscoveryProcess := none
  /-- The slices that were read, in every process. -/
  reads : List CompletedRead := []
  /-- The alerts that were handed to the sink, in every process. -/
  raised : List DiscoveryAlert := []
  /-- The last announcing passes that the tick has completed; no branch reads them. -/
  announcedWith : Option EmissionInput := none
  listedWith : Option EmissionInput := none

inductive DiscoveryCommand
  | boot
  | crash
  | begin (now : Time) (head : Option Int) (watched : List String)
  | writeSkip (now : Time) (stored : Bool)
  | advanceSkip (stored : Bool)
  | scanFails
  | scan (read : ChainScan) (at_ : Time)
  | endScans
  | count (stored : Bool)
  | enrich (now : Time) (reads : DiscoveryMemory.EnrichReads)
  | announce (now : Time) (names : String → Option String) (stored : Bool)
      (sink : DiscoveryAlert → Option Bool)
  | list (now : Time) (names : String → Option String) (stored : Bool)
      (sink : DiscoveryAlert → Option Bool)
  | advance (stored : Bool)
  | prune (now : Time)
  /-- Another writer of the store. -/
  | other (event : DiscoveryEvent)

/-- An event of this service, by its data or by its id. -/
def DiscoveryEvent.isOwn (chainId : ChainId) (event : DiscoveryEvent) : Bool :=
  let ownId := match event.id with
    | .watchedMint chain _ _ => chain = chainId
    | .random => false
  let ownData := match event.data with
    | .skipped chain _ _ _ => chain = chainId
    | .watchedMint chain _ _ _ _ => chain = chainId
    | .opportunity data => data.chainId = chainId
    | .calendarEntry data => data.chainId = chainId
    | .other _ => false
  ownId || ownData

namespace DiscoveryState

variable (options : DiscoveryOptions)

def moveTo (state : DiscoveryState) (memory : DiscoveryMemory) (point : TickPoint) :
    DiscoveryState :=
  { state with process := some { memory := memory, point := point } }

/-- The cursor is never moved back. -/
def advanceCursor (cursor : Option Int) (lastBlock : Int) (stored : Bool) :
    Except Error (Option Int) := do
  refuse (lastBlock < 0) "DISCOVERY_CURSOR_INVALID"
  refuse (cursor.any fun current => lastBlock < current) "DISCOVERY_CURSOR_REWIND"
  refuse (stored = false) "STORE"
  pure (some lastBlock)

/-- The first block of the first tick. -/
def firstStart (head : Int) : Int :=
  if options.initialLookbackBlocks < head then head - options.initialLookbackBlocks else 0

def startBlock (cursor : Option Int) (head : Int) : Int :=
  match cursor with
  | none => firstStart options head
  | some last => last + 1

/-- Where to go on when the cursor is too far behind. -/
def resumeBlock (cursor : Option Int) (head : Int) : Option Int :=
  match cursor with
  | none => none
  | some last =>
      let resume := head - options.initialLookbackBlocks
      if last < head ∧ options.maxLagBlocks < head - last ∧ options.initialLookbackBlocks < head ∧
          last + 1 < resume then some resume
      else none

/-- The start of a tick, up to its first write or read. -/
def begin_ (state : DiscoveryState) (memory : DiscoveryMemory) (now : Time) (head : Option Int)
    (rows : List String) : DiscoveryState :=
  let state := { state with announcedWith := none, listedWith := none }
  let memory :=
    if memory.restored then memory
    else { memory.restore options now state.events with restored := true }
  match head with
  | none => state.moveTo memory .idle
  | some head =>
      let locals : TickLocals :=
        { head := head
          watched := (rows.map toLowerCase).eraseDups
          fromBlock := startBlock options state.cursor head }
      match resumeBlock options state.cursor head with
      | some resume => state.moveTo memory (.skipping locals resume)
      | none => state.moveTo memory (.scanning locals)

/-- The turn of a mint.  The identity of its log is remembered before its event is stored. -/
def countNext (state : DiscoveryState) (memory : DiscoveryMemory) (locals : TickLocals)
    (scan : ChainScan) (at_ : Time) (mint : ObservedMint) (rest : List ObservedMint)
    (stored : Bool) : DiscoveryState :=
  let sighting := memory.firstSighting (DiscoveryMemory.sightingOf .mint mint.txHash mint.logIndex)
  if sighting.1 = false then state.moveTo sighting.2 (.counting locals scan at_ rest)
  else
    let memory := DiscoveryMemory.countMint locals.watched at_ mint sighting.2
    let touched :=
      { locals with touched := DiscoveryMemory.touch locals.touched mint.nftContract.lower }
    match DiscoveryMemory.watchedMintEvent options locals.watched at_ mint with
    | none => state.moveTo memory (.counting touched scan at_ rest)
    | some event =>
        if stored = false then state.moveTo memory .idle
        else if state.events.any fun known => known.id = event.id then
          state.moveTo memory (.counting touched scan at_ rest)
        else { state.moveTo memory (.counting touched scan at_ rest) with
          events := state.events ++ [event] }

/-- All mints are counted: what was received and published comes next. -/
def countRest (state : DiscoveryState) (memory : DiscoveryMemory) (locals : TickLocals)
    (scan : ChainScan) (at_ : Time) : DiscoveryState :=
  let received := scan.watchedMints.foldl (DiscoveryMemory.countReceived locals.watched at_)
    (memory, locals.touched)
  let memory := scan.dropUpdates.foldl (DiscoveryMemory.updateDrop at_) received.1
  state.moveTo memory (.enriching
    { locals with
      fromBlock := scan.toBlock + 1
      touched := received.2
      toBlock := some scan.toBlock } scan.toBlock)

def emissionInput (now : Time) (locals : TickLocals) (refresh : Bool) (source : Int)
    (names : String → Option String) : EmissionInput where
  now := now
  refreshAllowed := refresh
  sourceBlock := source
  watchingConfigured := locals.watched ≠ []
  names := names

/-- The events of a pass are stored together; nothing is written when there are none. -/
def writes (events : List DiscoveryEvent) (stored : Bool) : Bool :=
  events = [] || stored

/-- Alerts are handed over one by one; the sink may fail. -/
def raise (state : DiscoveryState) (memory : DiscoveryMemory) (alerts : List DiscoveryAlert)
    (sink : DiscoveryAlert → Option Bool) (point : TickPoint) : DiscoveryState :=
  { state.moveTo (alerts.foldl (DiscoveryMemory.raiseAlert sink) memory) point with
    raised := state.raised ++ alerts }

def opportunityEvents (input : EmissionInput) (memory : DiscoveryMemory) : List DiscoveryEvent :=
  (DiscoveryMemory.announcements options input memory).map fun announced =>
    { at_ := input.now, data := .opportunity announced.data }

def announce (state : DiscoveryState) (memory : DiscoveryMemory) (input : EmissionInput)
    (stored : Bool) (sink : DiscoveryAlert → Option Bool) (point : TickPoint) : DiscoveryState :=
  let events := opportunityEvents options input memory
  let alerts :=
    (DiscoveryMemory.announcements options input memory).filterMap Announcement.alert
  let memory := memory.markTracked options input
  if writes events stored then
    { state with
      events := state.events ++ events
      announcedWith := some input }.raise memory alerts sink point
  else state.moveTo memory .idle

def calendarEvents (input : EmissionInput) (memory : DiscoveryMemory) : List DiscoveryEvent :=
  (DiscoveryMemory.calendarEvents options memory input).map fun data =>
    { at_ := input.now, data := .calendarEntry data }

def list (state : DiscoveryState) (memory : DiscoveryMemory) (input : EmissionInput)
    (stored : Bool) (sink : DiscoveryAlert → Option Bool) (point : TickPoint) : DiscoveryState :=
  let events := calendarEvents options input memory
  let alerted := DiscoveryMemory.calendarAlerts options input
    (memory.calendar.filter (memory.isListed input.now)) (memory.markCalendar input)
  if writes events stored then
    { state with
      events := state.events ++ events
      listedWith := some input }.raise alerted.2 alerted.1 sink point
  else state.moveTo alerted.2 .idle

/-- A command of a running service; those that do not fit its point are refused. -/
def processStep (state : DiscoveryState) (memory : DiscoveryMemory) :
    TickPoint → DiscoveryCommand → Except Error DiscoveryState
  | .idle, .begin now head rows => .ok (begin_ options state memory now head rows)
  | .skipping locals resume, .writeSkip now stored =>
      if stored then
        .ok { state.moveTo memory (.skipped locals resume) with
          events := state.events ++
            [{ at_ := now
               data := .skipped options.chainId locals.fromBlock (resume - 1) locals.head }] }
      else .ok (state.moveTo memory .idle)
  | .skipped locals resume, .advanceSkip stored =>
      match advanceCursor state.cursor (resume - 1) stored with
      | .ok cursor =>
          .ok { state.moveTo memory (.scanning { locals with fromBlock := resume }) with
            cursor := cursor }
      | .error _ => .ok (state.moveTo memory .idle)
  | .scanning _, .scanFails => .ok (state.moveTo memory .idle)
  | .scanning locals, .scan read at_ => do
      refuse (options.maxScansPerTick ≤ locals.scans ∨ locals.head < locals.fromBlock) "SCANS_DONE"
      pure { state.moveTo memory (.counting locals read at_ read.mints) with
        reads := state.reads ++ [{ watched := locals.watched, scan := read }] }
  | .scanning locals, .endScans => do
      refuse (locals.scans < options.maxScansPerTick ∧ locals.fromBlock ≤ locals.head) "SCANS_LEFT"
      match locals.toBlock with
      | some _ => pure (state.moveTo memory .pruning)
      | none => pure (state.moveTo memory (.announcing locals true locals.head false))
  | .counting locals scan at_ (mint :: rest), .count stored =>
      .ok (countNext options state memory locals scan at_ mint rest stored)
  | .counting locals scan at_ [], .count _ => .ok (countRest state memory locals scan at_)
  | .enriching locals source, .enrich now reads =>
      let enriched := DiscoveryMemory.enrich now reads locals.touched memory
      if enriched.1 then
        .ok (state.moveTo enriched.2 (.announcing locals (locals.head ≤ source) source true))
      else .ok (state.moveTo enriched.2 .idle)
  | .announcing locals refresh source slice, .announce now names stored sink =>
      .ok (announce options state memory (emissionInput now locals refresh source names) stored sink
        (.listing locals refresh source slice))
  | .listing locals refresh source slice, .list now names stored sink =>
      .ok (list options state memory (emissionInput now locals refresh source names) stored sink
        (if slice then .advancing locals source else .pruning))
  | .advancing locals source, .advance stored =>
      match advanceCursor state.cursor source stored with
      | .ok cursor =>
          .ok { state.moveTo memory (.scanning { locals with scans := locals.scans + 1 }) with
            cursor := cursor }
      | .error _ => .ok (state.moveTo memory .idle)
  | .pruning, .prune now => .ok (state.moveTo (memory.prune now) .idle)
  | _, _ => .error "NOT_NOW"

def step (command : DiscoveryCommand) (state : DiscoveryState) : Except Error DiscoveryState :=
  match command with
  | .other event => do
      refuse (event.isOwn options.chainId = true) "NOT_ANOTHER"
      pure { state with events := state.events ++ [event] }
  | .crash => .ok { state with process := none }
  | .boot => do
      refuse state.process.isSome "RUNNING"
      pure { state with process := some {} }
  | command =>
      match state.process with
      | some process => processStep options state process.memory process.point command
      | none => .error "NOT_RUNNING"

/-! ## What a step does -/

/-- What one command can do to a state, for each point of the tick. -/
inductive Effect (state : DiscoveryState) : DiscoveryCommand → DiscoveryState → Prop
  | other {event : DiscoveryEvent} (another : event.isOwn options.chainId = false) :
      Effect state (.other event) { state with events := state.events ++ [event] }
  | crashed : Effect state .crash { state with process := none }
  | booted (down : state.process = none) : Effect state .boot { state with process := some {} }
  | begun {memory : DiscoveryMemory} (running : state.process = some ⟨memory, .idle⟩)
      (now : Time) (head : Option Int) (rows : List String) :
      Effect state (.begin now head rows) (begin_ options state memory now head rows)
  | skipWritten {memory : DiscoveryMemory} {locals : TickLocals} {resume : Int}
      (running : state.process = some ⟨memory, .skipping locals resume⟩) (now : Time) :
      Effect state (.writeSkip now true)
        { state.moveTo memory (.skipped locals resume) with
          events := state.events ++
            [{ at_ := now
               data := .skipped options.chainId locals.fromBlock (resume - 1) locals.head }] }
  | skipAdvanced {memory : DiscoveryMemory} {locals : TickLocals} {resume : Int}
      (running : state.process = some ⟨memory, .skipped locals resume⟩) {stored : Bool}
      {cursor : Option Int} (moved : advanceCursor state.cursor (resume - 1) stored = .ok cursor) :
      Effect state (.advanceSkip stored)
        { state.moveTo memory (.scanning { locals with fromBlock := resume }) with
          cursor := cursor }
  /-- A write or a read fails, and the tick ends. -/
  | failed {memory : DiscoveryMemory} {point : TickPoint}
      (running : state.process = some ⟨memory, point⟩) (command : DiscoveryCommand) :
      Effect state command (state.moveTo memory .idle)
  | scanned {memory : DiscoveryMemory} {locals : TickLocals}
      (running : state.process = some ⟨memory, .scanning locals⟩) (read : ChainScan) (at_ : Time) :
      Effect state (.scan read at_)
        { state.moveTo memory (.counting locals read at_ read.mints) with
          reads := state.reads ++ [{ watched := locals.watched, scan := read }] }
  | ended {memory : DiscoveryMemory} {locals : TickLocals}
      (running : state.process = some ⟨memory, .scanning locals⟩) {source : Int}
      (after : locals.toBlock = some source) :
      Effect state .endScans (state.moveTo memory .pruning)
  | idled {memory : DiscoveryMemory} {locals : TickLocals}
      (running : state.process = some ⟨memory, .scanning locals⟩)
      (none : locals.toBlock = none) :
      Effect state .endScans (state.moveTo memory (.announcing locals true locals.head false))
  | counted {memory : DiscoveryMemory} {locals : TickLocals} {scan : ChainScan} {at_ : Time}
      {mint : ObservedMint} {rest : List ObservedMint}
      (running : state.process = some ⟨memory, .counting locals scan at_ (mint :: rest)⟩)
      (stored : Bool) :
      Effect state (.count stored)
        (countNext options state memory locals scan at_ mint rest stored)
  | countDone {memory : DiscoveryMemory} {locals : TickLocals} {scan : ChainScan} {at_ : Time}
      (running : state.process = some ⟨memory, .counting locals scan at_ []⟩) (stored : Bool) :
      Effect state (.count stored) (countRest state memory locals scan at_)
  | enriched {memory : DiscoveryMemory} {locals : TickLocals} {source : Int}
      (running : state.process = some ⟨memory, .enriching locals source⟩) (now : Time)
      (reads : DiscoveryMemory.EnrichReads) (point : TickPoint)
      (next : point = .idle ∨
        point = .announcing locals (locals.head ≤ source) source true) :
      Effect state (.enrich now reads)
        (state.moveTo (DiscoveryMemory.enrich now reads locals.touched memory).2 point)
  | announced {memory : DiscoveryMemory} {locals : TickLocals} {refresh : Bool} {source : Int}
      {slice : Bool} (running : state.process = some ⟨memory, .announcing locals refresh source slice⟩)
      (now : Time) (names : String → Option String) (stored : Bool)
      (sink : DiscoveryAlert → Option Bool) :
      Effect state (.announce now names stored sink)
        (announce options state memory (emissionInput now locals refresh source names) stored sink
          (.listing locals refresh source slice))
  | listed {memory : DiscoveryMemory} {locals : TickLocals} {refresh : Bool} {source : Int}
      {slice : Bool} (running : state.process = some ⟨memory, .listing locals refresh source slice⟩)
      (now : Time) (names : String → Option String) (stored : Bool)
      (sink : DiscoveryAlert → Option Bool) :
      Effect state (.list now names stored sink)
        (list options state memory (emissionInput now locals refresh source names) stored sink
          (if slice then .advancing locals source else .pruning))
  | advanced {memory : DiscoveryMemory} {locals : TickLocals} {source : Int}
      (running : state.process = some ⟨memory, .advancing locals source⟩) {stored : Bool}
      {cursor : Option Int} (moved : advanceCursor state.cursor source stored = .ok cursor) :
      Effect state (.advance stored)
        { state.moveTo memory (.scanning { locals with scans := locals.scans + 1 }) with
          cursor := cursor }
  | pruned {memory : DiscoveryMemory} (running : state.process = some ⟨memory, .pruning⟩)
      (now : Time) : Effect state (.prune now) (state.moveTo (memory.prune now) .idle)

theorem processStep_effect {state next : DiscoveryState} {memory : DiscoveryMemory}
    {point : TickPoint} (running : state.process = some ⟨memory, point⟩)
    {command : DiscoveryCommand}
    (success : processStep options state memory point command = .ok next) :
    Effect options state command next := by
  cases point with
  | idle =>
      cases command with
      | begin now head rows =>
          cases success
          exact .begun running now head rows
      | _ => cases success
  | skipping locals resume =>
      cases command with
      | writeSkip now stored =>
          cases stored with
          | true =>
              cases success
              exact .skipWritten running now
          | false =>
              cases success
              exact .failed running _
      | _ => cases success
  | skipped locals resume =>
      cases command with
      | advanceSkip stored =>
          simp only [processStep] at success
          split at success
          · rename_i moved
            cases success
            exact .skipAdvanced running moved
          · cases success
            exact .failed running _
      | _ => cases success
  | scanning locals =>
      cases command with
      | scanFails =>
          cases success
          exact .failed running _
      | scan read at_ =>
          simp only [processStep, bind_eq_ok, refuse_eq_ok, pure_eq_ok] at success
          obtain ⟨_, -, rfl⟩ := success
          exact .scanned running read at_
      | endScans =>
          simp only [processStep, bind_eq_ok, refuse_eq_ok] at success
          obtain ⟨_, -, success⟩ := success
          cases last : locals.toBlock with
          | some source =>
              rw [last] at success
              cases success
              exact .ended running last
          | none =>
              rw [last] at success
              cases success
              exact .idled running last
      | _ => cases success
  | counting locals scan at_ rest =>
      cases command with
      | count stored =>
          cases rest with
          | nil =>
              cases success
              exact .countDone running stored
          | cons mint rest =>
              cases success
              exact .counted running stored
      | _ => cases rest <;> cases success
  | enriching locals source =>
      cases command with
      | enrich now reads =>
          simp only [processStep] at success
          split at success
          · cases success
            exact .enriched running now reads _ (.inr rfl)
          · cases success
            exact .enriched running now reads _ (.inl rfl)
      | _ => cases success
  | announcing locals refresh source slice =>
      cases command with
      | announce now names stored sink =>
          cases success
          exact .announced running now names stored sink
      | _ => cases success
  | listing locals refresh source slice =>
      cases command with
      | list now names stored sink =>
          cases success
          exact .listed running now names stored sink
      | _ => cases success
  | advancing locals source =>
      cases command with
      | advance stored =>
          simp only [processStep] at success
          split at success
          · rename_i moved
            cases success
            exact .advanced running moved
          · cases success
            exact .failed running _
      | _ => cases success
  | pruning =>
      cases command with
      | prune now =>
          cases success
          exact .pruned running now
      | _ => cases success

theorem step_effect {state next : DiscoveryState} {command : DiscoveryCommand}
    (success : step options command state = .ok next) : Effect options state command next := by
  have process (success : (match state.process with
      | some process => processStep options state process.memory process.point command
      | none => .error "NOT_RUNNING") = .ok next) : Effect options state command next := by
    cases running : state.process with
    | none =>
        rw [running] at success
        cases success
    | some process =>
        rw [running] at success
        exact processStep_effect options running success
  cases command with
  | other event =>
      simp only [step, bind_eq_ok, refuse_eq_ok, pure_eq_ok] at success
      obtain ⟨_, another, rfl⟩ := success
      exact .other (by simpa using another)
  | crash =>
      cases success
      exact .crashed
  | boot =>
      simp only [step, bind_eq_ok, refuse_eq_ok, pure_eq_ok] at success
      obtain ⟨_, down, rfl⟩ := success
      exact .booted (by simpa using down)
  | _ => exact process success

end DiscoveryState

end MintBot
