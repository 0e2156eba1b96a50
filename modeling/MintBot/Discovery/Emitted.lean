import MintBot.Discovery.Announced
import MintBot.Discovery.Coverage

/-!
# Failed writes and what is announced after them

In the runs in which no pass fails to store its events, every mark stands for a stored event
at every moment, and a tick that comes to its end leaves no active change behind: what was
not announced by a tick that failed elsewhere is announced by this one.

A pass whose write fails leaves marks without events.  The change they remember is not due
any more and is never announced.
-/

namespace MintBot

open Fallible Machine

namespace DiscoveryState

variable {options : DiscoveryOptions} {state next : DiscoveryState}

/-! ## Events and their alerts -/

/-- The alerts that were handed to the sink are those of the stored events. -/
structure HandedOver (options : DiscoveryOptions) (state : DiscoveryState) : Prop where
  opportunities : (state.raised.map DiscoveryAlert.dedupe).filter isOpportunityAlert =
    state.events.filterMap (opportunityAlert options.chainId)
  prices : ∀ event ∈ state.events, ∀ data, event.data = .calendarEntry data →
    data.chainId = options.chainId → options.budgetPerNftWei < data.priceWei →
      ∃ alert ∈ state.raised, alert.dedupe = .priceAboveLimit data.contract data.priceWei
  identities : ∀ process ∈ state.process, ∀ identity ∈ process.memory.priceAlertIdentities,
    ∃ alert ∈ state.raised, alert.dedupe = .priceAboveLimit identity.1 identity.2

theorem filterMap_quiet {more : List DiscoveryEvent}
    (quiet : ∀ event ∈ more, announces options.chainId event = false) :
    more.filterMap (opportunityAlert options.chainId) = [] :=
  List.filterMap_eq_nil_iff.mpr fun event member => opportunityAlert_quiet (quiet event member)

/-- Steps that announce nothing. -/
theorem HandedOver.keep (handed : HandedOver options state) {more : List DiscoveryEvent}
    (events : next.events = state.events ++ more)
    (quiet : ∀ event ∈ more, announces options.chainId event = false)
    (raised : next.raised = state.raised)
    (identities : ∀ process ∈ next.process, ∀ identity ∈ process.memory.priceAlertIdentities,
      ∃ alert ∈ state.raised, alert.dedupe = .priceAboveLimit identity.1 identity.2) :
    HandedOver options next where
  opportunities := by
    rw [raised, events, List.filterMap_append, filterMap_quiet quiet, List.append_nil]
    exact handed.opportunities
  prices := by
    intro event member data isCalendar own above
    rw [raised]
    rw [events] at member
    rcases List.mem_append.mp member with before | now
    · exact handed.prices event before data isCalendar own above
    · have silent := quiet event now
      simp [announces, isCalendar, own] at silent
  identities := by
    rw [raised]
    exact identities

theorem HandedOver.announce (handed : HandedOver options state) {memory : DiscoveryMemory}
    {point : TickPoint} (running : state.process = some ⟨memory, point⟩) (input : EmissionInput)
    (stored : Bool) (sink : DiscoveryAlert → Option Bool) (point' : TickPoint) :
    HandedOver options (announce options state memory input stored sink point') := by
  have known := handed.identities _ running
  unfold DiscoveryState.announce
  dsimp only
  split
  · refine ⟨?_, fun event member data isCalendar own above => ?_, ?_⟩
    · have alerts : ∀ dedupe ∈ ((DiscoveryMemory.announcements options input memory).filterMap
          Announcement.alert).map DiscoveryAlert.dedupe, isOpportunityAlert dedupe = true := by
        rw [opportunityAlerts_eq]
        intro dedupe member
        obtain ⟨event, -, alert⟩ := List.mem_filterMap.mp member
        exact opportunityAlert_kind alert
      change ((state.raised ++ _).map DiscoveryAlert.dedupe).filter isOpportunityAlert =
        (state.events ++ _).filterMap (opportunityAlert options.chainId)
      rw [List.map_append, List.filter_append, handed.opportunities,
        List.filter_eq_self.mpr alerts, opportunityAlerts_eq, List.filterMap_append]
    · rcases List.mem_append.mp member with before | now
      · obtain ⟨alert, raised, dedupe⟩ := handed.prices event before data isCalendar own above
        exact ⟨alert, List.mem_append_left _ raised, dedupe⟩
      · obtain ⟨announced, -, rfl⟩ := List.mem_map.mp now
        cases isCalendar
    · rintro _ ⟨⟩ identity member
      rcases (DiscoveryMemory.raise_identities sink _ _).1 identity member with
        before | ⟨alert, raised, dedupe⟩
      · obtain ⟨alert, raised, dedupe⟩ := known identity before
        exact ⟨alert, List.mem_append_left _ raised, dedupe⟩
      · exact ⟨alert, List.mem_append_right _ raised, dedupe⟩
  · refine ⟨handed.opportunities, handed.prices, ?_⟩
    rintro _ ⟨⟩
    exact known

/-- A calendar event of a pass belongs to a listed entry. -/
theorem mem_calendarEvents {input : EmissionInput} {memory : DiscoveryMemory}
    {event : DiscoveryEvent} (member : event ∈ calendarEvents options input memory) :
    ∃ entry ∈ memory.calendar.filter (memory.isListed input.now),
      event.data = .calendarEntry
        (DiscoveryMemory.calendarData options input entry.1 entry.2.drop) := by
  obtain ⟨data, inside, rfl⟩ := List.mem_map.mp member
  obtain ⟨entry, due, rfl⟩ := List.mem_map.mp inside
  obtain ⟨listed, isDue⟩ := List.mem_filter.mp due
  rw [DiscoveryMemory.calendarDue, Bool.and_eq_true] at isDue
  exact ⟨entry, List.mem_filter.mpr ⟨listed, isDue.1⟩, rfl⟩

theorem HandedOver.list (handed : HandedOver options state) {memory : DiscoveryMemory}
    {point : TickPoint} (running : state.process = some ⟨memory, point⟩) (input : EmissionInput)
    (stored : Bool) (sink : DiscoveryAlert → Option Bool) (point' : TickPoint) :
    HandedOver options (list options state memory input stored sink point') := by
  have known := handed.identities _ running
  have same := (calendarAlerts_sameItems options input
    (memory.calendar.filter (memory.isListed input.now)) (memory.markCalendar input)).2
  have knownAfter : ∀ identity ∈ (DiscoveryMemory.calendarAlerts options input
      (memory.calendar.filter (memory.isListed input.now))
      (memory.markCalendar input)).2.priceAlertIdentities,
      ∃ alert ∈ state.raised, alert.dedupe = .priceAboveLimit identity.1 identity.2 := by
    rw [same]
    exact known
  unfold DiscoveryState.list
  dsimp only
  split
  · refine ⟨?_, fun event member data isCalendar own above => ?_, ?_⟩
    · have alerts : ∀ dedupe ∈ (DiscoveryMemory.calendarAlerts options input
          (memory.calendar.filter (memory.isListed input.now))
          (memory.markCalendar input)).1.map DiscoveryAlert.dedupe,
          ¬ isOpportunityAlert dedupe = true := by
        intro dedupe member
        obtain ⟨alert, raised, rfl⟩ := List.mem_map.mp member
        rw [DiscoveryMemory.calendarAlerts_kind input _ _ alert raised]
        decide
      have events : (calendarEvents options input memory).filterMap
          (opportunityAlert options.chainId) = [] := by
        refine List.filterMap_eq_nil_iff.mpr fun event member => ?_
        obtain ⟨entry, -, isCalendar⟩ := mem_calendarEvents member
        simp only [opportunityAlert, isCalendar]
      change ((state.raised ++ _).map DiscoveryAlert.dedupe).filter isOpportunityAlert =
        (state.events ++ _).filterMap (opportunityAlert options.chainId)
      rw [List.map_append, List.filter_append, handed.opportunities,
        List.filter_eq_nil_iff.mpr alerts, List.filterMap_append, events]
    · rcases List.mem_append.mp member with before | now
      · obtain ⟨alert, raised, dedupe⟩ := handed.prices event before data isCalendar own above
        exact ⟨alert, List.mem_append_left _ raised, dedupe⟩
      · obtain ⟨entry, listed, isEntry⟩ := mem_calendarEvents now
        rw [isEntry] at isCalendar
        cases isCalendar
        rcases DiscoveryMemory.calendarAlerts_price listed above (memory.markCalendar input) with
          before | ⟨alert, raised, dedupe⟩
        · obtain ⟨alert, raised, dedupe⟩ := known _ (OrderedMap.mem_of_get before)
          exact ⟨alert, List.mem_append_left _ raised, dedupe⟩
        · exact ⟨alert, List.mem_append_right _ raised, dedupe⟩
    · rintro _ ⟨⟩ identity member
      rcases (DiscoveryMemory.raise_identities sink _ _).1 identity member with
        before | ⟨alert, raised, dedupe⟩
      · obtain ⟨alert, raised, dedupe⟩ := knownAfter identity before
        exact ⟨alert, List.mem_append_left _ raised, dedupe⟩
      · exact ⟨alert, List.mem_append_right _ raised, dedupe⟩
  · refine ⟨handed.opportunities, handed.prices, ?_⟩
    rintro _ ⟨⟩
    exact knownAfter

theorem restore_identities {memory : DiscoveryMemory} (sound : memory.Sound) (now : Time)
    {events : List DiscoveryEvent}
    (written : ∀ event ∈ events, DiscoveryMemory.EventSound options.chainId event) :
    ∀ identity ∈ (memory.restore options now events).priceAlertIdentities,
      identity ∈ memory.priceAlertIdentities :=
  (DiscoveryMemory.restore_invariant
    (I := fun later => ∀ identity ∈ later.priceAlertIdentities,
      identity ∈ memory.priceAlertIdentities)
    options now written sound (fun _ => id) fun _ _ _ _ _ _ restored before identity member =>
      before identity (restored.identities identity member)).2

theorem HandedOver.step {command : DiscoveryCommand} (handed : HandedOver options state)
    (sound : Sound options state) (success : step options command state = .ok next) :
    HandedOver options next := by
  have none : ∀ event ∈ ([] : List DiscoveryEvent),
      announces options.chainId event = false := fun _ member => nomatch member
  cases step_memorized success with
  | down stopped events raised =>
      refine handed.keep (events.trans (List.append_nil _).symm) none raised ?_
      rw [stopped]
      exact fun _ member => nomatch member
  | started fresh events raised =>
      refine handed.keep (events.trans (List.append_nil _).symm) none raised ?_
      rw [fresh]
      rintro _ ⟨⟩
      exact fun _ member => nomatch member
  | written process events quiet raised =>
      refine handed.keep events quiet raised ?_
      rw [process]
      exact handed.identities
  | learned running running' derived events quiet raised =>
      refine handed.keep events quiet raised ?_
      rw [running']
      rintro _ ⟨⟩ identity member
      exact handed.identities _ running identity
        ((derived (sound.memory _ running)).identities identity member)
  | restored now running running' events raised =>
      refine handed.keep (events.trans (List.append_nil _).symm) none raised ?_
      rw [running']
      rintro _ ⟨⟩ identity member
      exact handed.identities _ running identity
        (restore_identities (sound.memory _ running) now sound.events identity member)
  | announced running input stored sink point' guarded result =>
      rw [result]
      exact handed.announce running input stored sink point'
  | listed running input stored sink point' guarded result =>
      rw [result]
      exact handed.list running input stored sink point'

theorem handedOver_of_reaches {guard : DiscoveryState → DiscoveryCommand → Prop}
    (run : Reaches (step options) guard {} state) : HandedOver options state :=
  have start : Reaches (step options) guard {} {} := .refl _
  (run.invariant (I := fun state => Sound options state ∧ HandedOver options state)
    ⟨sound_of_reaches start, rfl, fun _ member => (nomatch member),
      fun _ member => (nomatch member)⟩
    fun _ _ _ ⟨sound, handed⟩ _ success => ⟨sound.step success, handed.step sound success⟩).2

/-! ## Marks and their events -/

/-- Every mark of the running process stands for an event of the store. -/
def Marked (options : DiscoveryOptions) (state : DiscoveryState) : Prop :=
  ∀ process ∈ state.process, Announced options state.events process.memory

theorem Announced.sameItems {events : List DiscoveryEvent} {memory later : DiscoveryMemory}
    (announced : Announced options events memory) (same : SameItems memory later) :
    Announced options events later where
  tracked := same.tracked ▸ announced.tracked
  calendar := same.calendar ▸ announced.calendar

theorem Marked.announce {memory : DiscoveryMemory} {point : TickPoint} (marked : Marked options state)
    (running : state.process = some ⟨memory, point⟩) (input : EmissionInput) {stored : Bool}
    (written : writes (opportunityEvents options input memory) stored = true)
    (sink : DiscoveryAlert → Option Bool) (point' : TickPoint) :
    Marked options (announce options state memory input stored sink point') := by
  unfold DiscoveryState.announce
  dsimp only
  rw [if_pos written]
  rintro _ ⟨⟩
  exact Announced.sameItems ((marked _ running).markTracked input) (raise_sameItems sink _ _)

theorem Marked.list {memory : DiscoveryMemory} {point : TickPoint} (marked : Marked options state)
    (running : state.process = some ⟨memory, point⟩) (sound : memory.Sound)
    (input : EmissionInput) {stored : Bool}
    (written : writes (calendarEvents options input memory) stored = true)
    (sink : DiscoveryAlert → Option Bool) (point' : TickPoint) :
    Marked options (list options state memory input stored sink point') := by
  unfold DiscoveryState.list
  dsimp only
  rw [if_pos written]
  rintro _ ⟨⟩
  have alerted := (calendarAlerts_sameItems options input
    (memory.calendar.filter (memory.isListed input.now)) (memory.markCalendar input)).1
  exact Announced.sameItems
    (Announced.sameItems ((marked _ running).markCalendar sound input) alerted)
    (raise_sameItems sink _ _)

theorem Marked.step {command : DiscoveryCommand} (marked : Marked options state)
    (sound : Sound options state) (guarded : EmissionsStored options state command)
    (success : step options command state = .ok next) : Marked options next := by
  cases step_memorized success with
  | down stopped events raised =>
      intro process running
      rw [stopped] at running
      cases running
  | started fresh events raised =>
      intro process running
      rw [fresh] at running
      cases running
      exact .fresh
  | written process events quiet raised =>
      intro current running
      rw [events]
      exact (marked current (process ▸ running)).mono
  | learned running running' derived events quiet raised =>
      intro current now
      rw [running'] at now
      cases now
      rw [events]
      exact ((marked _ running).derived (derived (sound.memory _ running))).mono
  | @restored memory point point' now running running' events raised =>
      intro current later
      rw [running'] at later
      cases later
      rw [events]
      have restored := (marked _ running).restored (sound.memory _ running) sound.events now
      exact ⟨restored.tracked, restored.calendar⟩
  | announced running input stored sink point' written result =>
      rw [result]
      exact marked.announce running input (written guarded) sink point'
  | listed running input stored sink point' written result =>
      rw [result]
      exact marked.list running (sound.memory _ running) input (written guarded) sink point'

/-! ## Nothing active is left behind -/

/-- The opportunity pass of this tick left no active item whose score or band it did not
announce. -/
def OpportunitiesCurrent (options : DiscoveryOptions) (state : DiscoveryState)
    (memory : DiscoveryMemory) : Prop :=
  ∃ input, state.announcedWith = some input ∧
    ∀ entry ∈ memory.tracked, isActive input.now entry.2 = true →
      opportunityChanged entry.2.lastEmit (scoreItem options input entry.2) = false

/-- The calendar pass of this tick left no listed entry whose terms it did not announce, and
raised the reminders that were due, as far as the day allows more of them. -/
def CalendarCurrent (options : DiscoveryOptions) (state : DiscoveryState)
    (memory : DiscoveryMemory) : Prop :=
  ∃ input, state.listedWith = some input ∧
    ∀ entry ∈ memory.calendar, memory.isListed input.now entry = true →
      DiscoveryMemory.calendarChanged entry.2 = false ∧
        ∀ window, DiscoveryMemory.reminderDue options input.now entry.2.drop = some window →
          DiscoveryMemory.RemindersUsed input.now memory ∨
            ∃ alert ∈ state.raised,
              alert.dedupe = .openingSoon entry.1 entry.2.drop.startTime window

/-- How far the passes of a tick have come at a point. -/
def PointCurrent (options : DiscoveryOptions) (state : DiscoveryState)
    (memory : DiscoveryMemory) : TickPoint → Prop
  | .skipping locals _ | .skipped locals _ => locals.toBlock = none
  | .scanning locals => locals.toBlock.isSome = true →
      OpportunitiesCurrent options state memory ∧ CalendarCurrent options state memory
  | .listing _ _ _ _ => OpportunitiesCurrent options state memory
  | .advancing _ _ | .pruning =>
      OpportunitiesCurrent options state memory ∧ CalendarCurrent options state memory
  | _ => True

def Current (options : DiscoveryOptions) (state : DiscoveryState) : Prop :=
  ∀ process ∈ state.process, PointCurrent options state process.memory process.point

theorem not_changed_of_mark {input : EmissionInput} {item : TrackedItem} {announced : Announcement}
    (due : announceItem options input item = some announced) :
    opportunityChanged (some announced.mark) (scoreItem options input item) = false := by
  unfold announceItem at due
  split at due
  · cases due
    simp [opportunityChanged, announcement, scoreChange]
  · cases due

theorem opportunities_current {memory : DiscoveryMemory} {input : EmissionInput} :
    ∀ entry ∈ (memory.markTracked options input).tracked, isActive input.now entry.2 = true →
      opportunityChanged entry.2.lastEmit (scoreItem options input entry.2) = false := by
  intro entry member active
  obtain ⟨before, tracked, rfl⟩ := List.mem_map.mp member
  dsimp only at active ⊢
  cases due : announceItem options input before.2 with
  | some announced =>
      change opportunityChanged (some announced.mark) (scoreItem options input before.2) = false
      exact not_changed_of_mark due
  | none =>
      rw [due] at active
      unfold announceItem at due
      split at due
      · cases due
      · rename_i notDue
        by_contra changed
        refine notDue ⟨active, ?_⟩
        rw [opportunityDue, Bool.or_eq_true]
        exact .inl (Bool.eq_true_of_not_eq_false changed)

theorem calendar_current {memory : DiscoveryMemory} {input : EmissionInput}
    {entry : String × CalendarItem} (member : entry ∈ (memory.markCalendar input).calendar)
    (listed : memory.isListed input.now entry = true) :
    DiscoveryMemory.calendarChanged entry.2 = false ∧
      ∃ before ∈ memory.calendar.filter (memory.isListed input.now),
        before.1 = entry.1 ∧ before.2.drop = entry.2.drop := by
  obtain ⟨before, inside, rfl⟩ := List.mem_map.mp member
  dsimp only at listed ⊢
  by_cases due : memory.calendarDue input before = true
  · have dueParts := due
    rw [DiscoveryMemory.calendarDue, Bool.and_eq_true] at dueParts
    rw [if_pos due]
    refine ⟨?_, before, List.mem_filter.mpr ⟨inside, dueParts.1⟩, rfl, rfl⟩
    simp [DiscoveryMemory.calendarChanged]
  · rw [if_neg due] at listed ⊢
    refine ⟨?_, before, List.mem_filter.mpr ⟨inside, listed⟩, rfl, rfl⟩
    by_contra changed
    refine due ?_
    rw [DiscoveryMemory.calendarDue, listed, Bool.true_and, Bool.or_eq_true]
    exact .inl (Bool.eq_true_of_not_eq_false changed)

theorem announce_current {memory : DiscoveryMemory} {input : EmissionInput} {stored : Bool}
    (written : writes (opportunityEvents options input memory) stored = true)
    (sink : DiscoveryAlert → Option Bool) {locals : TickLocals} {refresh : Bool} {source : Int}
    {slice : Bool} :
    Current options (announce options state memory input stored sink
      (.listing locals refresh source slice)) := by
  unfold DiscoveryState.announce
  dsimp only
  rw [if_pos written]
  rintro _ ⟨⟩
  refine ⟨input, rfl, ?_⟩
  dsimp only
  rw [(raise_sameItems sink _ _).tracked]
  exact opportunities_current

theorem isListed_of_tracked {memory later : DiscoveryMemory} (same : later.tracked = memory.tracked)
    (now : Time) (entry : String × CalendarItem) :
    later.isListed now entry = memory.isListed now entry := by
  unfold DiscoveryMemory.isListed
  rw [same]

/-- The alerts of a calendar pass over all the listed entries. -/
def passAlerts (options : DiscoveryOptions) (input : EmissionInput) (memory : DiscoveryMemory) :
    List DiscoveryAlert × DiscoveryMemory :=
  DiscoveryMemory.calendarAlerts options input
    (memory.calendar.filter (memory.isListed input.now)) (memory.markCalendar input)

theorem calendarCurrent_of_pass (memory : DiscoveryMemory) {later : DiscoveryMemory}
    {input : EmissionInput}
    (listedWith : state.listedWith = some input) (tracked : later.tracked = memory.tracked)
    (calendar : later.calendar = (memory.markCalendar input).calendar)
    (times : later.openingAlertTimes = (passAlerts options input memory).2.openingAlertTimes)
    (handed : ∀ alert ∈ (passAlerts options input memory).1, alert ∈ state.raised) :
    CalendarCurrent options state later := by
  refine ⟨input, listedWith, fun entry member listed => ?_⟩
  rw [calendar] at member
  rw [isListed_of_tracked tracked] at listed
  obtain ⟨current, before, inside, key, drop⟩ := calendar_current member listed
  refine ⟨current, fun window due => ?_⟩
  rw [← drop] at due ⊢
  rw [← key]
  rcases DiscoveryMemory.calendarAlerts_reminder inside due (memory.markCalendar input) with
    used | ⟨alert, raised, dedupe⟩
  · left
    rw [DiscoveryMemory.remindersUsed_iff] at used ⊢
    rw [times]
    exact used
  · exact .inr ⟨alert, handed alert raised, dedupe⟩

theorem list_current {memory : DiscoveryMemory} {input : EmissionInput} {stored : Bool}
    (opportunities : OpportunitiesCurrent options state memory)
    (written : writes (calendarEvents options input memory) stored = true)
    (sink : DiscoveryAlert → Option Bool) {point : TickPoint}
    (after : (∃ locals source, point = .advancing locals source) ∨ point = .pruning) :
    Current options (list options state memory input stored sink point) := by
  have alerted := (calendarAlerts_sameItems options input
    (memory.calendar.filter (memory.isListed input.now)) (memory.markCalendar input)).1
  have raised := raise_sameItems sink (passAlerts options input memory).1
    (passAlerts options input memory).2
  have tracked := raised.tracked.trans alerted.tracked
  have calendar := raised.calendar.trans alerted.calendar
  have times := (DiscoveryMemory.raise_identities sink (passAlerts options input memory).1
    (passAlerts options input memory).2).2
  unfold DiscoveryState.list
  dsimp only
  rw [if_pos written]
  rintro _ ⟨⟩
  obtain ⟨seen, announcedWith, current⟩ := opportunities
  rcases after with ⟨locals, source, rfl⟩ | rfl
  · exact ⟨⟨seen, announcedWith, tracked ▸ current⟩,
      calendarCurrent_of_pass memory rfl tracked calendar times fun _ => List.mem_append_right _⟩
  · exact ⟨⟨seen, announcedWith, tracked ▸ current⟩,
      calendarCurrent_of_pass memory rfl tracked calendar times fun _ => List.mem_append_right _⟩

theorem PointCurrent.same {memory : DiscoveryMemory} {point : TickPoint}
    (current : PointCurrent options state memory point)
    (announced : next.announcedWith = state.announcedWith)
    (listed : next.listedWith = state.listedWith) (raised : next.raised = state.raised) :
    PointCurrent options next memory point := by
  have opportunities (before : OpportunitiesCurrent options state memory) :
      OpportunitiesCurrent options next memory := by
    unfold OpportunitiesCurrent
    rw [announced]
    exact before
  have calendar (before : CalendarCurrent options state memory) :
      CalendarCurrent options next memory := by
    unfold CalendarCurrent
    rw [listed, raised]
    exact before
  cases point with
  | scanning locals => exact fun done => ⟨opportunities (current done).1, calendar (current done).2⟩
  | listing => exact opportunities current
  | advancing => exact ⟨opportunities current.1, calendar current.2⟩
  | pruning => exact ⟨opportunities current.1, calendar current.2⟩
  | skipping => exact current
  | skipped => exact current
  | _ => trivial

theorem begin_current {memory : DiscoveryMemory} (now : Time) (head : Option Int)
    (rows : List String) : Current options (begin_ options state memory now head rows) := by
  unfold begin_
  cases head with
  | none =>
      rintro _ ⟨⟩
      trivial
  | some height =>
      dsimp only
      split
      · rintro _ ⟨⟩
        exact rfl
      · rintro _ ⟨⟩
        exact fun done => nomatch done

theorem countNext_current {memory : DiscoveryMemory} {locals : TickLocals} {scan : ChainScan}
    {at_ : Time} {mint : ObservedMint} {rest : List ObservedMint} {stored : Bool} :
    Current options (countNext options state memory locals scan at_ mint rest stored) := by
  unfold countNext
  dsimp only
  split
  · rintro _ ⟨⟩
    trivial
  split
  · rintro _ ⟨⟩
    trivial
  split
  · rintro _ ⟨⟩
    trivial
  split <;> rintro _ ⟨⟩ <;> trivial

theorem Current.step {command : DiscoveryCommand} (current : Current options state)
    (guarded : EmissionsStored options state command)
    (success : step options command state = .ok next) : Current options next := by
  cases step_effect options success with
  | other another => exact fun process running => (current process running).same rfl rfl rfl
  | crashed => exact fun _ running => nomatch running
  | begun running now head rows => exact begin_current now head rows
  | skipWritten running now =>
      rintro _ ⟨⟩
      exact current _ running
  | @skipAdvanced memory locals resume running stored cursor moved =>
      have first : locals.toBlock = none := current _ running
      rintro _ ⟨⟩
      intro done
      simp [first] at done
  | ended running after =>
      rintro _ ⟨⟩
      have both : PointCurrent options state _ .pruning := current _ running (by rw [after]; rfl)
      exact both.same rfl rfl rfl
  | counted running stored => exact countNext_current
  | enriched running now reads point next =>
      rintro _ ⟨⟩
      rcases next with rfl | rfl <;> trivial
  | @announced memory locals refresh source slice running now names stored sink =>
      refine announce_current ?_ sink
      rw [← guarded]
      simp only [pendingEvents, running]
  | @listed memory locals refresh source slice running now names stored sink =>
      have opportunities := current _ running
      refine list_current opportunities ?_ sink ?_
      · rw [← guarded]
        simp only [pendingEvents, running]
      · cases slice with
        | true => exact .inl ⟨locals, source, rfl⟩
        | false => exact .inr rfl
  | @advanced memory locals source running stored cursor moved =>
      have both : PointCurrent options state memory .pruning := current _ running
      rintro _ ⟨⟩
      exact fun _ => both.same rfl rfl rfl
  | booted | failed | scanned | idled | countDone | pruned =>
      rintro _ ⟨⟩
      trivial

/-! ## Failed ticks are made up for -/

/-- Nothing that a tick could not store is forgotten: every mark stands for a stored event,
every stored event has its alert, and a tick that has come to its end left no active change
without its event. -/
structure NothingForgotten (options : DiscoveryOptions) (state : DiscoveryState) : Prop where
  marked : Marked options state
  handed : HandedOver options state
  current : ∀ memory, state.process = some ⟨memory, .pruning⟩ →
    OpportunitiesCurrent options state memory ∧ CalendarCurrent options state memory

/-- Any history of the store, then the runs of a service that starts from it. -/
theorem nothing_forgotten {source : DiscoveryState}
    (history : Reaches (step options) (fun _ _ => True) {} source) (down : source.process = none)
    (run : Reaches (step options) (EmissionsStored options) source state) :
    NothingForgotten options state := by
  have start : ∀ process ∈ source.process, False := by
    rw [down]
    exact fun _ running => nomatch running
  have kept := run.invariant
    (I := fun state => Sound options state ∧ HandedOver options state ∧ Marked options state ∧
      Current options state)
    ⟨sound_of_reaches history, handedOver_of_reaches history,
      fun process running => (start process running).elim,
      fun process running => (start process running).elim⟩
    fun _ _ _ ⟨sound, handed, marked, current⟩ guarded success =>
      ⟨sound.step success, handed.step sound success, marked.step sound guarded success,
        current.step guarded success⟩
  obtain ⟨-, handed, marked, current⟩ := kept
  exact ⟨marked, handed, fun memory running => current _ running⟩

theorem nothing_forgotten_sample :
    NothingForgotten sampleOptions
      (applyAll (step sampleOptions) {} (.boot :: sampleTick 0 true)) :=
  nothing_forgotten (.refl _) rfl ((Reaches.refl _).applyAll (by decide +kernel))

/-- A pass fails to store its events; the tick after it goes through. -/
def unannouncedState : DiscoveryState :=
  applyAll (step sampleOptions) {} (.boot :: ((sampleTick 0 true).take 5 ++
    .announce 0 (fun _ => none) false (fun _ => some true) :: sampleTick 1 true))

theorem unannouncedState_reached :
    Reaches (step sampleOptions) (fun _ _ => True) {} unannouncedState :=
  (Reaches.refl _).applyAll (allowed_true _ _ _)

/-- The mark of the failed pass hides the change from the tick that goes through. -/
theorem failed_announcement_forgotten :
    ¬ ∀ options source state, Reaches (step options) (fun _ _ => True) {} source →
      source.process = none → Reaches (step options) (fun _ _ => True) source state →
        NothingForgotten options state := by
  intro kept
  have marked := (kept sampleOptions {} _ (.refl _) rfl unannouncedState_reached).marked
  have mints : ∀ event ∈ unannouncedState.events, event.isWatchedMint = true := by
    decide +kernel
  have marks : unannouncedState.process.any (fun process =>
      process.memory.tracked.any fun entry => entry.2.lastEmit.isSome) = true := by
    decide +kernel
  obtain ⟨process, running, someMark⟩ := (Option.any_eq_true _ _).mp marks
  obtain ⟨entry, tracked, isSome⟩ := List.any_eq_true.mp someMark
  obtain ⟨mark, lastEmit⟩ := Option.isSome_iff_exists.mp isSome
  obtain ⟨event, member, data, isOpportunity, -⟩ :=
    (marked process running).tracked entry tracked mark lastEmit
  have isMint := mints event member
  simp [DiscoveryEvent.isWatchedMint, isOpportunity] at isMint

end DiscoveryState

end MintBot
