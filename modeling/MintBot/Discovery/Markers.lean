import MintBot.Discovery.Written

/-!
# What discovery believes to have announced

The marks of the items decide whether a change is announced.  They are set item by item
before the one write that stores the events of a pass, so a pass whose write fails leaves
marks that stand for nothing.

In the runs in which no pass with events fails to store them, every mark stands for a stored
event, and a tick that goes through leaves every active item announced as it is.
-/

namespace MintBot

open Fallible Machine

namespace DiscoveryState

variable {options : DiscoveryOptions} {state next : DiscoveryState}

/-- The events that a pass has to store. -/
def pendingEvents (options : DiscoveryOptions) (state : DiscoveryState) :
    DiscoveryCommand → List DiscoveryEvent
  | .announce now names _ _ =>
      match state.process with
      | some ⟨memory, .announcing locals refresh source _⟩ =>
          opportunityEvents options (emissionInput now locals refresh source names) memory
      | _ => []
  | .list now names _ _ =>
      match state.process with
      | some ⟨memory, .listing locals refresh source _⟩ =>
          calendarEvents options (emissionInput now locals refresh source names) memory
      | _ => []
  | _ => []

/-- No pass that has events to store fails to store them.  All other writes may fail. -/
def EmissionsStored (options : DiscoveryOptions) (state : DiscoveryState)
    (command : DiscoveryCommand) : Prop :=
  match command with
  | .announce _ _ stored _ | .list _ _ stored _ =>
      writes (pendingEvents options state command) stored = true
  | _ => True

instance (state : DiscoveryState) (command : DiscoveryCommand) :
    Decidable (EmissionsStored options state command) :=
  match command with
  | .announce _ _ _ _ | .list _ _ _ _ => inferInstanceAs (Decidable (_ = true))
  | .begin _ _ _ | .count _ | .scan _ _ | .boot | .crash | .writeSkip _ _ | .advanceSkip _
  | .scanFails | .endScans | .enrich _ _ | .advance _ | .prune _ | .other _ => .isTrue trivial

/-! ## What a step does to the memory -/

/-- An opportunity or a calendar entry of this chain. -/
def announces (chainId : ChainId) (event : DiscoveryEvent) : Bool :=
  match event.data with
  | .opportunity data => data.chainId = chainId
  | .calendarEntry data => data.chainId = chainId
  | _ => false

/-- A step restores, makes one of the two announcing passes, or learns something. -/
inductive Memorized (options : DiscoveryOptions) (state : DiscoveryState)
    (command : DiscoveryCommand) (next : DiscoveryState) : Prop
  | down (stopped : next.process = none) (events : next.events = state.events)
      (raised : next.raised = state.raised)
  | started (fresh : next.process = some {}) (events : next.events = state.events)
      (raised : next.raised = state.raised)
  | written {more : List DiscoveryEvent} (process : next.process = state.process)
      (events : next.events = state.events ++ more)
      (quiet : ∀ event ∈ more, announces options.chainId event = false)
      (raised : next.raised = state.raised)
  | learned {memory memory' : DiscoveryMemory} {point point' : TickPoint}
      {more : List DiscoveryEvent} (running : state.process = some ⟨memory, point⟩)
      (running' : next.process = some ⟨memory', point'⟩)
      (derived : memory.Sound → memory.Derived memory')
      (events : next.events = state.events ++ more)
      (quiet : ∀ event ∈ more, announces options.chainId event = false)
      (raised : next.raised = state.raised)
  | restored {memory : DiscoveryMemory} {point point' : TickPoint} (now : Time)
      (running : state.process = some ⟨memory, point⟩)
      (running' : next.process =
        some ⟨{ memory.restore options now state.events with restored := true }, point'⟩)
      (events : next.events = state.events) (raised : next.raised = state.raised)
  | announced {memory : DiscoveryMemory} {point : TickPoint}
      (running : state.process = some ⟨memory, point⟩) (input : EmissionInput) (stored : Bool)
      (sink : DiscoveryAlert → Option Bool) (point' : TickPoint)
      (guarded : EmissionsStored options state command →
        writes (opportunityEvents options input memory) stored = true)
      (result : next = announce options state memory input stored sink point')
  | listed {memory : DiscoveryMemory} {point : TickPoint}
      (running : state.process = some ⟨memory, point⟩) (input : EmissionInput) (stored : Bool)
      (sink : DiscoveryAlert → Option Bool) (point' : TickPoint)
      (guarded : EmissionsStored options state command →
        writes (calendarEvents options input memory) stored = true)
      (result : next = list options state memory input stored sink point')

theorem announces_other {event : DiscoveryEvent} (another : event.isOwn options.chainId = false) :
    announces options.chainId event = false := by
  unfold announces
  split
  · rename_i data isOpportunity
    by_contra own
    simp [DiscoveryEvent.isOwn, isOpportunity, (by simpa using own : data.chainId = _)] at another
  · rename_i data isCalendar
    by_contra own
    simp [DiscoveryEvent.isOwn, isCalendar, (by simpa using own : data.chainId = _)] at another
  · rfl

theorem announces_watchedMint {watched : List String} {at_ : Time} {mint : ObservedMint}
    {event : DiscoveryEvent}
    (due : DiscoveryMemory.watchedMintEvent options watched at_ mint = some event) :
    announces options.chainId event = false := by
  unfold DiscoveryMemory.watchedMintEvent at due
  split at due
  · split at due
    · cases due
      rfl
    · cases due
  · cases due

theorem eventSound_of_quiet {event : DiscoveryEvent}
    (quiet : announces options.chainId event = false) :
    DiscoveryMemory.EventSound options.chainId event := by
  unfold DiscoveryMemory.EventSound
  split
  · rename_i data isOpportunity
    intro same
    simp [announces, isOpportunity, same] at quiet
  · rename_i data isCalendar
    intro same
    simp [announces, isCalendar, same] at quiet
  · trivial

theorem countNext_memorized {memory : DiscoveryMemory} {point : TickPoint}
    (running : state.process = some ⟨memory, point⟩) (locals : TickLocals) (scan : ChainScan)
    (at_ : Time) (mint : ObservedMint) (rest : List ObservedMint) (stored : Bool) :
    Memorized options state (.count stored)
      (countNext options state memory locals scan at_ mint rest stored) := by
  have sighted (sound : memory.Sound) :=
    DiscoveryMemory.Derived.firstSighting sound
      (DiscoveryMemory.sightingOf .mint mint.txHash mint.logIndex)
  have counted (sound : memory.Sound) := (sighted sound).trans
    (DiscoveryMemory.Derived.countMint (sighted sound).sound locals.watched at_ mint)
  have none : ∀ event ∈ ([] : List DiscoveryEvent),
      announces options.chainId event = false := fun _ member => nomatch member
  unfold countNext
  dsimp only
  split
  · exact .learned running rfl sighted (List.append_nil _).symm none rfl
  split
  · exact .learned running rfl counted (List.append_nil _).symm none rfl
  rename_i event due
  split
  · exact .learned running rfl counted (List.append_nil _).symm none rfl
  split
  · exact .learned running rfl counted (List.append_nil _).symm none rfl
  · refine .learned running rfl counted rfl (fun known member => ?_) rfl
    rw [List.mem_singleton.mp member]
    exact announces_watchedMint due

theorem begin_memorized {memory : DiscoveryMemory} {point : TickPoint}
    (running : state.process = some ⟨memory, point⟩) (now : Time) (head : Option Int)
    (rows : List String) :
    Memorized options state (.begin now head rows) (begin_ options state memory now head rows) := by
  have none : ∀ event ∈ ([] : List DiscoveryEvent),
      announces options.chainId event = false := fun _ member => nomatch member
  unfold begin_
  dsimp only
  by_cases restored : memory.restored = true
  · rw [if_pos restored]
    cases head with
    | none => exact .learned running rfl .refl (List.append_nil _).symm none rfl
    | some height =>
        dsimp only
        split <;> exact .learned running rfl .refl (List.append_nil _).symm none rfl
  · rw [if_neg restored]
    cases head with
    | none => exact .restored now running rfl rfl rfl
    | some height =>
        dsimp only
        split <;> exact .restored now running rfl rfl rfl

theorem step_memorized {command : DiscoveryCommand}
    (success : step options command state = .ok next) :
    Memorized options state command next := by
  have none : ∀ event ∈ ([] : List DiscoveryEvent),
      announces options.chainId event = false := fun _ member => nomatch member
  cases step_effect options success with
  | other another =>
      refine .written rfl rfl (fun event member => ?_) rfl
      rw [List.mem_singleton.mp member]
      exact announces_other another
  | crashed => exact .down rfl rfl rfl
  | booted => exact .started rfl rfl rfl
  | begun running now head rows => exact begin_memorized running now head rows
  | skipWritten running now =>
      refine .learned running rfl .refl rfl (fun event member => ?_) rfl
      rw [List.mem_singleton.mp member]
      rfl
  | skipAdvanced running moved =>
      exact .learned running rfl .refl (List.append_nil _).symm none rfl
  | failed running => exact .learned running rfl .refl (List.append_nil _).symm none rfl
  | scanned running => exact .learned running rfl .refl (List.append_nil _).symm none rfl
  | ended running => exact .learned running rfl .refl (List.append_nil _).symm none rfl
  | idled running => exact .learned running rfl .refl (List.append_nil _).symm none rfl
  | counted running stored => exact countNext_memorized running _ _ _ _ _ stored
  | @countDone memory locals scan at_ running stored =>
      refine .learned running rfl (fun sound => ?_) (List.append_nil _).symm none rfl
      have counting : (memory, locals.touched).1.Sound := sound
      have received := DiscoveryMemory.Derived.countReceived_all locals.watched at_
        scan.watchedMints counting
      exact received.trans
        (DiscoveryMemory.Derived.updateDrop_all at_ scan.dropUpdates received.sound)
  | enriched running now reads =>
      exact .learned running rfl (.enrich now reads _) (List.append_nil _).symm none rfl
  | announced running now names stored sink =>
      refine .announced running _ stored sink _ (fun guarded => ?_) rfl
      rw [← guarded]
      simp only [pendingEvents, running]
  | listed running now names stored sink =>
      refine .listed running _ stored sink _ (fun guarded => ?_) rfl
      rw [← guarded]
      simp only [pendingEvents, running]
  | advanced running moved => exact .learned running rfl .refl (List.append_nil _).symm none rfl
  | pruned running now =>
      exact .learned running rfl (.prune now) (List.append_nil _).symm none rfl

/-! ## Texts and times stay sound -/

/-- The events of this chain and the memory are sound. -/
structure Sound (options : DiscoveryOptions) (state : DiscoveryState) : Prop where
  events : ∀ event ∈ state.events, DiscoveryMemory.EventSound options.chainId event
  memory : ∀ process ∈ state.process, process.memory.Sound

theorem opportunityEvents_sound {memory : DiscoveryMemory} (sound : memory.Sound)
    (input : EmissionInput) :
    ∀ event ∈ opportunityEvents options input memory,
      DiscoveryMemory.EventSound options.chainId event := by
  intro event member
  obtain ⟨announced, announcing, rfl⟩ := List.mem_map.mp member
  obtain ⟨entry, tracked, due⟩ := List.mem_filterMap.mp announcing
  obtain ⟨-, itemSound⟩ := sound.tracked entry tracked
  unfold announceItem at due
  split at due
  · cases due
    refine fun _ => ⟨itemSound.lower, itemSound.address, rfl, rfl, rfl, ?_,
      fun address inside => ?_⟩
    · change (if _ = ScoreBand.log then Disposition.scored else .notified) = .scored ↔
        some _ = some ScoreBand.log
      rw [Option.some_inj]
      split <;> simp_all
    · have known := (List.perm_insertionSort _ _).subset inside
      obtain ⟨seen, recent, rfl⟩ := List.mem_map.mp known
      exact itemSound.watched seen (List.mem_filter.mp recent).1
  · cases due

theorem calendarEvents_sound {memory : DiscoveryMemory} (sound : memory.Sound)
    (input : EmissionInput) :
    ∀ event ∈ calendarEvents options input memory,
      DiscoveryMemory.EventSound options.chainId event := by
  intro event member
  obtain ⟨data, listing, rfl⟩ := List.mem_map.mp member
  obtain ⟨entry, inside, rfl⟩ := List.mem_map.mp listing
  have lower := (sound.calendar entry (List.mem_filter.mp inside).1).1
  refine fun _ => ⟨lower, fun start opens => ?_, fun close closes => ?_⟩
  · simp only [DiscoveryMemory.calendarData, Option.mem_def] at opens
    split at opens
    · rename_i positive
      cases opens
      exact Int.mul_nonneg positive.le (by decide)
    · cases opens
  · simp only [DiscoveryMemory.calendarData, Option.mem_def] at closes
    split at closes
    · rename_i positive
      cases closes
      exact Int.mul_nonneg positive.le (by decide)
    · cases closes

theorem markTracked_sound (options : DiscoveryOptions) {memory : DiscoveryMemory} (sound : memory.Sound)
    (input : EmissionInput) : (memory.markTracked options input).Sound := by
  refine ⟨fun entry member => ?_, sound.calendar⟩
  obtain ⟨before, tracked, rfl⟩ := List.mem_map.mp member
  obtain ⟨key, itemSound⟩ := sound.tracked before tracked
  unfold markItem
  dsimp only
  split
  · exact ⟨key, itemSound.lower, itemSound.address, itemSound.watched⟩
  · exact ⟨key, itemSound⟩

theorem markCalendar_sound {memory : DiscoveryMemory} (sound : memory.Sound)
    (input : EmissionInput) : (memory.markCalendar input).Sound := by
  refine ⟨sound.tracked, fun entry member => ?_⟩
  obtain ⟨before, listed, rfl⟩ := List.mem_map.mp member
  obtain ⟨key, dated⟩ := sound.calendar before listed
  dsimp only
  split
  · exact ⟨key, dated⟩
  · exact ⟨key, dated⟩

/-- Alerts change what is known of raised alerts, and nothing else. -/
structure SameItems (old new : DiscoveryMemory) : Prop where
  tracked : new.tracked = old.tracked
  calendar : new.calendar = old.calendar

theorem SameItems.sound {old new : DiscoveryMemory} (same : SameItems old new)
    (sound : old.Sound) : new.Sound :=
  ⟨same.tracked ▸ sound.tracked, same.calendar ▸ sound.calendar⟩

theorem raise_sameItems (sink : DiscoveryAlert → Option Bool) (alerts : List DiscoveryAlert)
    (memory : DiscoveryMemory) :
    SameItems memory (alerts.foldl (DiscoveryMemory.raiseAlert sink) memory) := by
  induction alerts generalizing memory with
  | nil => exact ⟨rfl, rfl⟩
  | cons alert rest inductionHypothesis =>
      have later := inductionHypothesis (DiscoveryMemory.raiseAlert sink memory alert)
      have first : SameItems memory (DiscoveryMemory.raiseAlert sink memory alert) := by
        unfold DiscoveryMemory.raiseAlert
        split <;> exact ⟨rfl, rfl⟩
      exact ⟨later.tracked.trans first.tracked, later.calendar.trans first.calendar⟩

theorem calendarAlert_sameItems (options : DiscoveryOptions) (input : EmissionInput) (entry : String × CalendarItem)
    (memory : DiscoveryMemory) :
    SameItems memory (DiscoveryMemory.calendarAlert options input entry memory).2 ∧
      (DiscoveryMemory.calendarAlert options input entry memory).2.priceAlertIdentities =
        memory.priceAlertIdentities := by
  have allowed : SameItems memory (memory.openingAlertAllowed input.now).2 ∧
      (memory.openingAlertAllowed input.now).2.priceAlertIdentities =
        memory.priceAlertIdentities := by
    unfold DiscoveryMemory.openingAlertAllowed
    dsimp only
    split <;> exact ⟨⟨rfl, rfl⟩, rfl⟩
  unfold DiscoveryMemory.calendarAlert
  dsimp only
  split
  · split <;> exact ⟨⟨rfl, rfl⟩, rfl⟩
  split
  · split
    · exact ⟨⟨rfl, rfl⟩, rfl⟩
    · split <;> exact allowed
  · exact ⟨⟨rfl, rfl⟩, rfl⟩

theorem calendarAlerts_sameItems (options : DiscoveryOptions) (input : EmissionInput) (entries : List (String × CalendarItem))
    (memory : DiscoveryMemory) :
    SameItems memory (DiscoveryMemory.calendarAlerts options input entries memory).2 ∧
      (DiscoveryMemory.calendarAlerts options input entries memory).2.priceAlertIdentities =
        memory.priceAlertIdentities := by
  induction entries generalizing memory with
  | nil => exact ⟨⟨rfl, rfl⟩, rfl⟩
  | cons entry rest inductionHypothesis =>
      obtain ⟨first, firstIdentities⟩ := calendarAlert_sameItems options input entry memory
      obtain ⟨later, laterIdentities⟩ :=
        inductionHypothesis (DiscoveryMemory.calendarAlert options input entry memory).2
      exact ⟨⟨later.tracked.trans first.tracked, later.calendar.trans first.calendar⟩,
        laterIdentities.trans firstIdentities⟩

theorem Sound.announce (sound : Sound options state) {memory : DiscoveryMemory}
    (memorySound : memory.Sound) (input : EmissionInput) (stored : Bool)
    (sink : DiscoveryAlert → Option Bool) (point : TickPoint) :
    Sound options (announce options state memory input stored sink point) := by
  have marked := markTracked_sound options memorySound input
  unfold DiscoveryState.announce
  dsimp only
  split
  · refine ⟨fun event member => ?_, ?_⟩
    · rcases List.mem_append.mp member with before | now
      · exact sound.events event before
      · exact opportunityEvents_sound memorySound input event now
    · rintro _ ⟨⟩
      exact (raise_sameItems _ _ _).sound marked
  · refine ⟨sound.events, ?_⟩
    rintro _ ⟨⟩
    exact marked

theorem Sound.list (sound : Sound options state) {memory : DiscoveryMemory}
    (memorySound : memory.Sound) (input : EmissionInput) (stored : Bool)
    (sink : DiscoveryAlert → Option Bool) (point : TickPoint) :
    Sound options (list options state memory input stored sink point) := by
  have marked := markCalendar_sound memorySound input
  have alerted := (calendarAlerts_sameItems options input
    (memory.calendar.filter (memory.isListed input.now)) (memory.markCalendar input)).1.sound marked
  unfold DiscoveryState.list
  dsimp only
  split
  · refine ⟨fun event member => ?_, ?_⟩
    · rcases List.mem_append.mp member with before | now
      · exact sound.events event before
      · exact calendarEvents_sound memorySound input event now
    · rintro _ ⟨⟩
      exact (raise_sameItems _ _ _).sound alerted
  · refine ⟨sound.events, ?_⟩
    rintro _ ⟨⟩
    exact alerted

theorem Sound.step {command : DiscoveryCommand} (sound : Sound options state)
    (success : step options command state = .ok next) : Sound options next := by
  have extended {more : List DiscoveryEvent}
      (quiet : ∀ event ∈ more, announces options.chainId event = false) :
      ∀ event ∈ state.events ++ more, DiscoveryMemory.EventSound options.chainId event := by
    intro event member
    rcases List.mem_append.mp member with before | now
    · exact sound.events event before
    · exact eventSound_of_quiet (quiet event now)
  cases step_memorized success with
  | down stopped events => exact ⟨events ▸ sound.events, by simp [stopped]⟩
  | started fresh events =>
      refine ⟨events ▸ sound.events, ?_⟩
      rw [fresh]
      rintro _ ⟨⟩
      exact ⟨fun _ member => (nomatch member), fun _ member => (nomatch member)⟩
  | written process events quiet => exact ⟨events ▸ extended quiet, process ▸ sound.memory⟩
  | learned running running' derived events quiet =>
      refine ⟨events ▸ extended quiet, ?_⟩
      rw [running']
      rintro _ ⟨⟩
      exact (derived (sound.memory _ running)).sound
  | @restored memory point point' now running running' events =>
      refine ⟨events ▸ sound.events, ?_⟩
      rw [running']
      rintro _ ⟨⟩
      have restored := (DiscoveryMemory.restore_invariant (I := fun _ => True) options now
        sound.events (sound.memory _ running) trivial fun _ _ _ _ _ _ _ _ => trivial).1
      exact ⟨restored.tracked, restored.calendar⟩
  | announced running input stored sink point' guarded result =>
      rw [result]
      exact sound.announce (sound.memory _ running) input stored sink point'
  | listed running input stored sink point' guarded result =>
      rw [result]
      exact sound.list (sound.memory _ running) input stored sink point'

theorem sound_of_reaches {guard : DiscoveryState → DiscoveryCommand → Prop}
    (run : Reaches (step options) guard {} state) : Sound options state :=
  run.invariant ⟨fun _ member => (nomatch member), fun _ member => (nomatch member)⟩
    fun _ _ _ sound _ success => sound.step success

end DiscoveryState

end MintBot
