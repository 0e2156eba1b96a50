import Mathlib.Data.List.DropRight
import MintBot.Discovery.Markers

/-!
# Marks and the events they stand for

Every event about an opportunity comes with its alert, and every calendar event whose price
is above the limit was followed by an alert for that price.  What is left is the connection
of the marks with the events: it holds as long as no pass fails to store its events.
-/

namespace MintBot

open Fallible Machine

/-- An event of the store says what the mark remembers. -/
def OpportunityStored (options : DiscoveryOptions) (events : List DiscoveryEvent)
    (contract : String) (mark : OpportunityMark) : Prop :=
  ∃ event ∈ events, ∃ data, event.data = .opportunity data ∧ data.chainId = options.chainId ∧
    data.contract = contract ∧ event.at_ = mark.at_ ∧ data.score = some mark.score ∧
    data.band = some mark.band

/-- The signature that a calendar event was written for. -/
def announcedSignature (data : CalendarData) : DropSignature where
  priceWei := data.priceWei
  startTime := data.openingAt.getD 0 / 1000
  endTime := data.closingAt.getD 0 / 1000
  maxPerWallet := data.maxPerWallet

def CalendarStored (options : DiscoveryOptions) (events : List DiscoveryEvent)
    (contract : String) (mark : CalendarMark) : Prop :=
  ∃ event ∈ events, ∃ data, event.data = .calendarEntry data ∧ data.chainId = options.chainId ∧
    data.contract = contract ∧ event.at_ = mark.at_ ∧ announcedSignature data = mark.signature

/-- Every mark stands for an event of the store. -/
structure Announced (options : DiscoveryOptions) (events : List DiscoveryEvent)
    (memory : DiscoveryMemory) : Prop where
  tracked : ∀ entry ∈ memory.tracked, ∀ mark ∈ entry.2.lastEmit,
    OpportunityStored options events entry.2.contract mark
  calendar : ∀ entry ∈ memory.calendar, ∀ mark ∈ entry.2.lastEmit,
    CalendarStored options events entry.1 mark

variable {options : DiscoveryOptions} {events more : List DiscoveryEvent}
  {memory new : DiscoveryMemory}

theorem OpportunityStored.mono {contract : String} {mark : OpportunityMark}
    (stored : OpportunityStored options events contract mark) :
    OpportunityStored options (events ++ more) contract mark := by
  obtain ⟨event, member, data⟩ := stored
  exact ⟨event, List.mem_append_left _ member, data⟩

theorem CalendarStored.mono {contract : String} {mark : CalendarMark}
    (stored : CalendarStored options events contract mark) :
    CalendarStored options (events ++ more) contract mark := by
  obtain ⟨event, member, data⟩ := stored
  exact ⟨event, List.mem_append_left _ member, data⟩

theorem Announced.mono (announced : Announced options events memory) :
    Announced options (events ++ more) memory where
  tracked := fun entry member mark marked => (announced.tracked entry member mark marked).mono
  calendar := fun entry member mark marked => (announced.calendar entry member mark marked).mono

theorem Announced.fresh : Announced options events {} where
  tracked := fun _ member => nomatch member
  calendar := fun _ member => nomatch member

/-- What is only learned keeps its mark. -/
theorem Announced.derived (announced : Announced options events memory)
    (derived : memory.Derived new) : Announced options events new where
  tracked := by
    intro entry member mark marked
    rcases derived.tracked entry member with none | ⟨before, beforeMember, contract, same⟩
    · rw [none] at marked
      cases marked
    · rw [← contract]
      exact announced.tracked before beforeMember mark (same ▸ marked)
  calendar := by
    intro entry member mark marked
    rcases derived.calendar entry member with none | ⟨before, beforeMember, key, same⟩
    · rw [none] at marked
      cases marked
    · rw [← key]
      exact announced.calendar before beforeMember mark (same ▸ marked)

/-! ## Restoring -/

theorem opportunityStored_restored {event : DiscoveryEvent} (member : event ∈ events)
    {data : OpportunityData} (isOpportunity : event.data = .opportunity data)
    (own : data.chainId = options.chainId) (written : data.Written) {mark : OpportunityMark}
    (marked : mark ∈ (DiscoveryMemory.restoredItem (toLowerCase data.contract) event.at_
      data).lastEmit) :
    OpportunityStored options events (toLowerCase data.contract) mark := by
  cases marked
  obtain ⟨score, scored⟩ := Option.isSome_iff_exists.mp written.scored
  obtain ⟨band, banded⟩ := Option.isSome_iff_exists.mp written.banded
  refine ⟨event, member, data, isOpportunity, own, written.lower.symm, rfl, ?_, ?_⟩
  · rw [scored, Option.getD_some]
  · rw [banded, Option.getD_some]

theorem calendarStored_restored {event : DiscoveryEvent} (member : event ∈ events)
    {data : CalendarData} (isCalendar : event.data = .calendarEntry data)
    (own : data.chainId = options.chainId) (written : data.Written) {drop : DropSnapshot}
    (read : DiscoveryMemory.dropFromEvent data (toLowerCase data.contract) = some drop) :
    CalendarStored options events (toLowerCase data.contract)
      { at_ := event.at_, signature := dropSignature drop } := by
  refine ⟨event, member, data, isCalendar, own, written.lower.symm, rfl, ?_⟩
  unfold DiscoveryMemory.dropFromEvent at read
  split at read
  · cases read
  · rename_i start opens
    split at read
    · cases read
    · cases read
      simp only [announcedSignature, dropSignature, opens, Option.getD_some]

theorem Announced.restored (announced : Announced options events memory)
    (sound : memory.Sound)
    (written : ∀ event ∈ events, DiscoveryMemory.EventSound options.chainId event) (now : Time) :
    Announced options events (memory.restore options now events) := by
  refine (DiscoveryMemory.restore_invariant options now written sound announced ?_).2
  intro old new event key member own restored before
  constructor
  · intro entry inside mark marked
    rcases restored.tracked entry inside with earlier | ⟨data, isOpportunity, rfl⟩
    · exact before.tracked entry earlier mark marked
    · have chain : data.chainId = options.chainId := by
        by_contra other
        simp [DiscoveryMemory.restoredKey, isOpportunity, other] at own
      have sound := written event member
      simp only [DiscoveryMemory.EventSound, isOpportunity] at sound
      exact opportunityStored_restored member isOpportunity chain (sound chain) marked
  · intro entry inside mark marked
    rcases restored.calendar entry inside with earlier | ⟨data, drop, isCalendar, read, rfl⟩
    · exact before.calendar entry earlier mark marked
    · have chain : data.chainId = options.chainId := by
        by_contra other
        simp [DiscoveryMemory.restoredKey, isCalendar, other] at own
      have sound := written event member
      simp only [DiscoveryMemory.EventSound, isCalendar] at sound
      cases marked
      exact calendarStored_restored member isCalendar chain (sound chain) read

/-! ## The two passes -/

/-- A mark is set together with an event of the pass. -/
theorem opportunityStored_marked {input : EmissionInput} {entry : String × TrackedItem}
    (member : entry ∈ memory.tracked) {announcement : Announcement}
    (due : announceItem options input entry.2 = some announcement) :
    OpportunityStored options (DiscoveryState.opportunityEvents options input memory)
      entry.2.contract announcement.mark := by
  refine ⟨{ at_ := input.now, data := .opportunity announcement.data },
    List.mem_map.mpr ⟨announcement, List.mem_filterMap.mpr ⟨entry, member, due⟩, rfl⟩,
    announcement.data, rfl, ?_⟩
  unfold announceItem at due
  split at due
  · cases due
    exact ⟨rfl, rfl, rfl, rfl, rfl⟩
  · cases due

theorem calendarStored_marked {input : EmissionInput} (sound : memory.Sound)
    {entry : String × CalendarItem} (member : entry ∈ memory.calendar)
    (due : memory.calendarDue input entry = true) :
    CalendarStored options (DiscoveryState.calendarEvents options input memory) entry.1
      { at_ := input.now, signature := dropSignature entry.2.drop } := by
  have dated := (sound.calendar entry member).2
  refine ⟨_,
    List.mem_map.mpr ⟨_, List.mem_map.mpr ⟨entry, List.mem_filter.mpr ⟨member, due⟩, rfl⟩, rfl⟩,
    _, rfl, rfl, rfl, rfl, ?_⟩
  have seconds (time : Int) (positive : 0 ≤ time) :
      (if 0 < time then some (time * 1000) else none).getD 0 / 1000 = time := by
    split
    · rw [Option.getD_some]
      exact Int.mul_ediv_cancel time (by decide)
    · simp only [Option.getD_none]
      omega
  simp only [announcedSignature, DiscoveryMemory.calendarData, dropSignature,
    seconds _ dated.starts, seconds _ dated.ends]

theorem Announced.markTracked (announced : Announced options events memory)
    (input : EmissionInput) :
    Announced options (events ++ DiscoveryState.opportunityEvents options input memory)
      (memory.markTracked options input) := by
  refine ⟨fun entry member mark marked => ?_, announced.mono.calendar⟩
  obtain ⟨before, tracked, rfl⟩ := List.mem_map.mp member
  unfold markItem at marked ⊢
  dsimp only at marked ⊢
  split at marked
  · rename_i announcement due
    cases marked
    obtain ⟨event, inside, data⟩ := opportunityStored_marked tracked due
    exact ⟨event, List.mem_append_right _ inside, data⟩
  · exact (announced.tracked before tracked mark marked).mono

theorem Announced.markCalendar (announced : Announced options events memory)
    (sound : memory.Sound) (input : EmissionInput) :
    Announced options (events ++ DiscoveryState.calendarEvents options input memory)
      (memory.markCalendar input) := by
  refine ⟨announced.mono.tracked, fun entry member mark marked => ?_⟩
  obtain ⟨before, listed, rfl⟩ := List.mem_map.mp member
  dsimp only at marked ⊢
  split at marked
  · rename_i due
    cases marked
    obtain ⟨event, inside, data⟩ := calendarStored_marked sound listed due
    exact ⟨event, List.mem_append_right _ inside, data⟩
  · exact (announced.calendar before listed mark marked).mono

/-! ## The alerts of a pass -/

def isOpportunityAlert : AlertDedupe → Bool
  | .opportunity _ _ => true
  | _ => false

/-- The alert that an event of this chain comes with. -/
def opportunityAlert (chainId : ChainId) (event : DiscoveryEvent) : Option AlertDedupe :=
  match event.data with
  | .opportunity data =>
      if data.chainId = chainId ∧ data.blocked = false ∧ data.band ≠ some .log then
        data.band.map (AlertDedupe.opportunity data.contract)
      else none
  | _ => none

theorem opportunityAlert_quiet {event : DiscoveryEvent}
    (quiet : DiscoveryState.announces options.chainId event = false) :
    opportunityAlert options.chainId event = none := by
  unfold opportunityAlert
  split
  · rename_i data isOpportunity
    refine if_neg fun due => ?_
    simp [DiscoveryState.announces, isOpportunity, due.1] at quiet
  · rfl

theorem alert_of_announceItem {input : EmissionInput} {item : TrackedItem} {announced : Announcement}
    (due : announceItem options input item = some announced) :
    announced.alert.map DiscoveryAlert.dedupe =
      opportunityAlert options.chainId { at_ := input.now, data := .opportunity announced.data } := by
  unfold announceItem at due
  split at due
  · cases due
    by_cases alertable : isAlertable (scoreItem options input item) = true
    · have reason := alertable
      simp only [isAlertable, Bool.and_eq_true, Bool.not_eq_true', ne_eq,
        decide_eq_true_eq] at reason
      simp [announcement, opportunityAlert, opportunityData, alertable, reason]
    · have reason := alertable
      simp only [isAlertable, Bool.and_eq_true, Bool.not_eq_true', ne_eq,
        decide_eq_true_eq] at reason
      simp [announcement, opportunityAlert, opportunityData, alertable, reason]
  · cases due

/-- The alerts of an opportunity pass are those of its events, in their order. -/
theorem opportunityAlerts_eq (input : EmissionInput) (memory : DiscoveryMemory) :
    ((DiscoveryMemory.announcements options input memory).filterMap Announcement.alert).map
        DiscoveryAlert.dedupe =
      (DiscoveryState.opportunityEvents options input memory).filterMap
        (opportunityAlert options.chainId) := by
  rw [DiscoveryState.opportunityEvents, List.filterMap_map, List.map_filterMap]
  refine List.filterMap_congr fun announced member => ?_
  obtain ⟨entry, -, due⟩ := List.mem_filterMap.mp member
  exact alert_of_announceItem due

theorem opportunityAlert_kind {event : DiscoveryEvent} {dedupe : AlertDedupe}
    (alert : opportunityAlert options.chainId event = some dedupe) :
    isOpportunityAlert dedupe = true := by
  unfold opportunityAlert at alert
  split at alert
  · split at alert
    · obtain ⟨band, -, rfl⟩ := Option.map_eq_some_iff.mp alert
      rfl
    · cases alert
  · cases alert

namespace DiscoveryMemory

/-- The reminder that a drop calls for. -/
def reminderDue (options : DiscoveryOptions) (now : Time) (drop : DropSnapshot) :
    Option OpeningWindow :=
  if drop.priceWei ≤ options.budgetPerNftWei ∧ now < drop.startTime * 1000 ∧
      0 < drop.maxPerWallet then openingWindow now drop
  else none

/-- The reminders of this day are used up. -/
def RemindersUsed (now : Time) (memory : DiscoveryMemory) : Prop :=
  (memory.openingAlertAllowed now).1 = false

theorem remindersUsed_iff {now : Time} :
    RemindersUsed now memory ↔ maxOpeningAlertsPerDay ≤
      (memory.openingAlertTimes.dropWhile fun earlier => 24 * hourMs < now - earlier).length := by
  unfold RemindersUsed openingAlertAllowed
  dsimp only
  split <;> simp_all

theorem RemindersUsed.again {now : Time} (used : RemindersUsed now memory) :
    RemindersUsed now (memory.openingAlertAllowed now).2 := by
  have many := remindersUsed_iff.mp used
  rw [remindersUsed_iff]
  unfold openingAlertAllowed
  rw [if_pos many]
  dsimp only
  rwa [List.dropWhile_idempotent]

theorem RemindersUsed.calendarAlert {input : EmissionInput} (used : RemindersUsed input.now memory)
    (entry : String × CalendarItem) :
    RemindersUsed input.now (calendarAlert options input entry memory).2 := by
  unfold DiscoveryMemory.calendarAlert
  dsimp only
  split
  · split <;> exact used
  split
  · split
    · exact used
    · split <;> exact used.again
  · exact used

theorem RemindersUsed.calendarAlerts {input : EmissionInput} (used : RemindersUsed input.now memory)
    (entries : List (String × CalendarItem)) :
    RemindersUsed input.now (calendarAlerts options input entries memory).2 := by
  induction entries generalizing memory with
  | nil => exact used
  | cons entry rest inductionHypothesis => exact inductionHypothesis (used.calendarAlert entry)

theorem calendarAlert_kind {input : EmissionInput} {entry : String × CalendarItem}
    {alert : DiscoveryAlert} (raised : (calendarAlert options input entry memory).1 = some alert) :
    isOpportunityAlert alert.dedupe = false := by
  unfold calendarAlert at raised
  dsimp only at raised
  split at raised
  · split at raised
    · cases raised
    · cases raised
      rfl
  split at raised
  · split at raised
    · cases raised
    · split at raised
      · cases raised
        rfl
      · cases raised
  · cases raised

theorem calendarAlerts_kind (input : EmissionInput) (entries : List (String × CalendarItem))
    (memory : DiscoveryMemory) :
    ∀ alert ∈ (calendarAlerts options input entries memory).1,
      isOpportunityAlert alert.dedupe = false := by
  induction entries generalizing memory with
  | nil => exact fun _ member => nomatch member
  | cons entry rest inductionHypothesis =>
      intro alert member
      rcases List.mem_append.mp member with now | later
      · exact calendarAlert_kind (Option.mem_toList.mp now)
      · exact inductionHypothesis _ alert later

theorem calendarAlert_price (input : EmissionInput) {entry : String × CalendarItem}
    (above : options.budgetPerNftWei < entry.2.drop.priceWei)
    (unknown : memory.priceAlertIdentities.get entry.1 ≠ some entry.2.drop.priceWei) :
    ∃ alert, (calendarAlert options input entry memory).1 = some alert ∧
      alert.dedupe = .priceAboveLimit entry.1 entry.2.drop.priceWei := by
  unfold calendarAlert
  dsimp only
  rw [if_pos above, if_neg unknown]
  exact ⟨_, rfl, rfl⟩

theorem calendarAlert_reminder {input : EmissionInput} {entry : String × CalendarItem}
    {window : OpeningWindow} (due : reminderDue options input.now entry.2.drop = some window)
    (allowed : (memory.openingAlertAllowed input.now).1 = true) :
    ∃ alert, (calendarAlert options input entry memory).1 = some alert ∧
      alert.dedupe = .openingSoon entry.1 entry.2.drop.startTime window := by
  unfold reminderDue at due
  split at due
  · rename_i calls
    unfold calendarAlert
    dsimp only
    rw [if_neg (not_lt.mpr calls.1), if_pos calls.2, due]
    dsimp only
    rw [if_pos allowed]
    exact ⟨_, rfl, rfl⟩
  · cases due

/-- A price above the limit is alerted, unless its alert is known to be raised. -/
theorem calendarAlerts_price {input : EmissionInput} {entries : List (String × CalendarItem)}
    {entry : String × CalendarItem} (member : entry ∈ entries)
    (above : options.budgetPerNftWei < entry.2.drop.priceWei) (memory : DiscoveryMemory) :
    memory.priceAlertIdentities.get entry.1 = some entry.2.drop.priceWei ∨
      ∃ alert ∈ (calendarAlerts options input entries memory).1,
        alert.dedupe = .priceAboveLimit entry.1 entry.2.drop.priceWei := by
  induction entries generalizing memory with
  | nil => cases member
  | cons first rest inductionHypothesis =>
      rcases List.mem_cons.mp member with rfl | later
      · by_cases known : memory.priceAlertIdentities.get entry.1 = some entry.2.drop.priceWei
        · exact .inl known
        · obtain ⟨alert, raised, dedupe⟩ := calendarAlert_price input above known
          exact .inr ⟨alert, List.mem_append_left _ (Option.mem_toList.mpr raised), dedupe⟩
      · have same := (DiscoveryState.calendarAlert_sameItems options input first
          memory).2
        rcases inductionHypothesis later (calendarAlert options input first memory).2 with
          known | ⟨alert, raised, dedupe⟩
        · exact .inl (same ▸ known)
        · exact .inr ⟨alert, List.mem_append_right _ raised, dedupe⟩

/-- A reminder that is due is raised, unless the reminders of the day are used up. -/
theorem calendarAlerts_reminder {input : EmissionInput} {entries : List (String × CalendarItem)}
    {entry : String × CalendarItem} (member : entry ∈ entries) {window : OpeningWindow}
    (due : reminderDue options input.now entry.2.drop = some window) (memory : DiscoveryMemory) :
    RemindersUsed input.now (calendarAlerts options input entries memory).2 ∨
      ∃ alert ∈ (calendarAlerts options input entries memory).1,
        alert.dedupe = .openingSoon entry.1 entry.2.drop.startTime window := by
  induction entries generalizing memory with
  | nil => cases member
  | cons first rest inductionHypothesis =>
      rcases List.mem_cons.mp member with rfl | later
      · by_cases allowed : (memory.openingAlertAllowed input.now).1 = true
        · obtain ⟨alert, raised, dedupe⟩ := calendarAlert_reminder due allowed
          exact .inr ⟨alert, List.mem_append_left _ (Option.mem_toList.mpr raised), dedupe⟩
        · have used : RemindersUsed input.now memory := Bool.eq_false_of_not_eq_true allowed
          exact .inl (used.calendarAlerts (entry :: rest))
      · rcases inductionHypothesis later (calendarAlert options input first memory).2 with
          used | ⟨alert, raised, dedupe⟩
        · exact .inl used
        · exact .inr ⟨alert, List.mem_append_right _ raised, dedupe⟩

/-- An alert that is remembered was handed over. -/
theorem raise_identities (sink : DiscoveryAlert → Option Bool) (alerts : List DiscoveryAlert)
    (memory : DiscoveryMemory) :
    (∀ identity ∈ (alerts.foldl (raiseAlert sink) memory).priceAlertIdentities,
      identity ∈ memory.priceAlertIdentities ∨
        ∃ alert ∈ alerts, alert.dedupe = .priceAboveLimit identity.1 identity.2) ∧
      (alerts.foldl (raiseAlert sink) memory).openingAlertTimes = memory.openingAlertTimes := by
  induction alerts generalizing memory with
  | nil => exact ⟨fun _ => .inl, rfl⟩
  | cons alert rest inductionHypothesis =>
      obtain ⟨later, times⟩ := inductionHypothesis (raiseAlert sink memory alert)
      have first : (∀ identity ∈ (raiseAlert sink memory alert).priceAlertIdentities,
          identity ∈ memory.priceAlertIdentities ∨
            alert.dedupe = .priceAboveLimit identity.1 identity.2) ∧
          (raiseAlert sink memory alert).openingAlertTimes = memory.openingAlertTimes := by
        unfold raiseAlert
        split
        · rename_i contract priceWei _ kind _
          refine ⟨fun identity member => ?_, rfl⟩
          have inside : identity ∈ memory.priceAlertIdentities.set contract priceWei := by
            dsimp only at member
            split at member
            · exact List.mem_of_mem_tail member
            · exact member
          rcases OrderedMap.mem_set inside with rfl | before
          · exact .inr kind
          · exact .inl before
        · exact ⟨fun _ => .inl, rfl⟩
      refine ⟨fun identity member => ?_, times.trans first.2⟩
      rcases later identity member with known | ⟨other, inside, dedupe⟩
      · rcases first.1 identity known with before | dedupe
        · exact .inl before
        · exact .inr ⟨alert, List.mem_cons_self, dedupe⟩
      · exact .inr ⟨other, List.mem_cons_of_mem _ inside, dedupe⟩

end DiscoveryMemory

end MintBot
