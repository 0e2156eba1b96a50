import MintBot.Watcher.Pieces

/-!
# No accept is lost, when accepts come in order

The scan for accepts stops at the first event that is dated at its watermark or
before, so an accept is seen only while it and every event after it are newer.
An accept that is seen and due is taken in once: the watermark then covers it,
and no later scan reaches it again.
-/

namespace MintBot

open Fallible

section Runs

variable {options : FleetWatcherOptions}

/-! ## The scan -/

theorem foundAccept_event {event : WatchEvent} {accept : FoundAccept}
    (found : foundAccept options event = some accept) : accept.event = event := by
  simp only [foundAccept, bind, Option.bind_eq_some_iff, Option.ite_none_right_eq_some,
    Option.some.injEq] at found
  obtain ⟨-, -, -, -, -, -, -, -, -, -, -, rfl⟩ := found
  rfl

/-- Every accept of the scan stands in the store, and in the order of the store. -/
theorem foundAccepts_sublist (state : WatchState) :
    List.Sublist ((state.foundAccepts options).map FoundAccept.event) state.events := by
  have inTail : List.Sublist ((state.foundAccepts options).map FoundAccept.event)
      (unseenEvents state.lastAcceptSyncAt state.events) := by
    rw [WatchState.foundAccepts]
    induction unseenEvents state.lastAcceptSyncAt state.events with
    | nil => simp
    | cons event rest inductionHypothesis =>
        cases found : foundAccept options event with
        | none => simpa [found] using inductionHypothesis.cons event
        | some accept =>
            simpa [found, foundAccept_event found] using inductionHypothesis.cons_cons event
  exact inTail.trans (List.rtakeWhile_suffix _ _).sublist

theorem foundAccepts_date {state : WatchState} {accept : FoundAccept}
    (member : accept ∈ state.foundAccepts options) :
    ∀ mark ∈ state.lastAcceptSyncAt, mark < accept.event.date := by
  obtain ⟨event, inTail, found⟩ := List.mem_filterMap.mp member
  rw [foundAccept_event found]
  simpa using List.mem_rtakeWhile_imp inTail

theorem mem_rtakeWhile_of_suffix {α : Type} {p : α → Bool} {first : α} {rest all : List α}
    (tail : first :: rest <:+ all) (holds : ∀ item ∈ first :: rest, p item) :
    first ∈ all.rtakeWhile p := by
  obtain ⟨front, rfl⟩ := tail
  suffices first :: rest <:+ (front ++ first :: rest).rtakeWhile p from
    this.subset List.mem_cons_self
  unfold List.rtakeWhile
  rw [List.reverse_append, ← List.reverse_prefix, List.reverse_reverse,
    List.takeWhile_append_of_pos fun item member => holds item (List.mem_reverse.mp member)]
  exact List.prefix_append _ _

/-- The watermark has come to a date. -/
def WatermarkCovers (watermark : Option Time) (date : Time) : Prop :=
  ∃ mark ∈ watermark, date ≤ mark

theorem foundAccepts_uncovered {state : WatchState} {accept : FoundAccept}
    (member : accept ∈ state.foundAccepts options) :
    ¬ WatermarkCovers state.lastAcceptSyncAt accept.event.date := by
  rintro ⟨mark, current, reached⟩
  exact absurd (foundAccepts_date member mark current) (not_lt.mpr reached)

section Watermark

variable {now : Time} {watermark : Option Time} {date : Time}

theorem covered_step (event : WatchEvent) (covered : WatermarkCovers watermark date) :
    WatermarkCovers
      (if event.date ≤ now + futureToleranceMs ∧ (∀ mark ∈ watermark, mark < event.date) then
        some event.date
      else watermark) date := by
  split
  next newer =>
    obtain ⟨mark, current, reached⟩ := covered
    exact ⟨event.date, rfl, reached.trans (newer.2 mark current).le⟩
  next => exact covered

theorem covered_nextWatermark (unseen : List WatchEvent)
    (covered : WatermarkCovers watermark date) :
    WatermarkCovers (nextWatermark now watermark unseen) date := by
  unfold nextWatermark
  induction unseen.reverse generalizing watermark with
  | nil => exact covered
  | cons event rest inductionHypothesis => exact inductionHypothesis (covered_step event covered)

theorem nextWatermark_covers {unseen : List WatchEvent} {event : WatchEvent}
    (member : event ∈ unseen) (inTime : event.date ≤ now + futureToleranceMs) :
    WatermarkCovers (nextWatermark now watermark unseen) event.date := by
  have stands : event ∈ unseen.reverse := List.mem_reverse.mpr member
  have later := @covered_nextWatermark now
  unfold nextWatermark at later ⊢
  generalize unseen.reverse = events at stands
  induction events generalizing watermark with
  | nil => cases stands
  | cons first rest inductionHypothesis =>
      rcases List.mem_cons.mp stands with rfl | stands
      · rw [List.foldl_cons]
        have covered : WatermarkCovers (if event.date ≤ now + futureToleranceMs ∧
            (∀ mark ∈ watermark, mark < event.date) then some event.date else watermark)
            event.date := by
          split
          next => exact ⟨event.date, rfl, le_refl _⟩
          next older =>
            obtain ⟨mark, current, reached⟩ :
                ∃ mark ∈ watermark, event.date ≤ mark := by
              simpa [inTime] using older
            exact ⟨mark, current, reached⟩
        simpa using later rest.reverse covered
      · exact inductionHypothesis stands

end Watermark

/-! ## Taking one accept in -/

theorem timesReported_report (state : WatchState) (accept : FoundAccept)
    (sent finding : FleetWatchFinding) (eventId : String) :
    (state.report (accept.report sent)).timesReported finding eventId =
      state.timesReported finding eventId +
        if sent = finding ∧ accept.event.id = eventId then 1 else 0 := by
  simp only [WatchState.timesReported, WatchState.report, FoundAccept.report, List.countP_append,
    List.countP_singleton, decide_eq_true_eq, FindingIdentity.accept.injEq]

/-- What taking in one accept leaves alone. -/
structure Scanned (state next : WatchState) : Prop where
  events : next.events = state.events
  watermark : next.lastAcceptSyncAt = state.lastAcceptSyncAt
  now : next.now = state.now
  observations : next.observations = state.observations
  synced : next.history.synced = state.history.synced

theorem Scanned.reading {state next : WatchState} (scanned : Scanned state next) (key : WatchKey) :
    next.reading key = state.reading key := by
  rw [WatchState.reading, scanned.observations]
  rfl

theorem takeAccept_scanned (state : WatchState) (accept : FoundAccept) :
    Scanned state (takeAccept state accept) := by
  unfold takeAccept
  split
  · exact ⟨rfl, rfl, rfl, rfl, rfl⟩
  · split <;> exact ⟨rfl, rfl, rfl, rfl, rfl⟩

theorem foldl_takeAccept_scanned (accepts : List FoundAccept) (state : WatchState) :
    Scanned state (accepts.foldl takeAccept state) := by
  induction accepts generalizing state with
  | nil => exact ⟨rfl, rfl, rfl, rfl, rfl⟩
  | cons accept rest inductionHypothesis =>
      have first := takeAccept_scanned state accept
      have others := inductionHypothesis (takeAccept state accept)
      exact ⟨others.events.trans first.events, others.watermark.trans first.watermark,
        others.now.trans first.now, others.observations.trans first.observations,
        others.synced.trans first.synced⟩

/-- Nothing is reported on an accept, and no origin is recorded for it, while
others are taken in. -/
theorem takeAccept_other {state : WatchState} {accept : FoundAccept} {eventId : String}
    (other : accept.event.id ≠ eventId) :
    (∀ finding, (takeAccept state accept).timesReported finding eventId =
        state.timesReported finding eventId) ∧
      (takeAccept state accept).history.origin eventId = state.history.origin eventId := by
  unfold takeAccept
  split
  · exact ⟨fun _ => rfl, rfl⟩
  · split
    · refine ⟨fun finding => ?_, rfl⟩
      rw [timesReported_report, if_neg (by simp [other]), Nat.add_zero]
    · refine ⟨fun finding => ?_, Function.update_of_ne (Ne.symm other) _ _⟩
      rw [adoptAccept, timesReported_report, if_neg (by simp [other]), Nat.add_zero]
      rfl

theorem foldl_takeAccept_other {accepts : List FoundAccept} {eventId : String}
    (others : ∀ accept ∈ accepts, accept.event.id ≠ eventId) (state : WatchState) :
    (∀ finding, (accepts.foldl takeAccept state).timesReported finding eventId =
        state.timesReported finding eventId) ∧
      (accepts.foldl takeAccept state).history.origin eventId = state.history.origin eventId := by
  induction accepts generalizing state with
  | nil => exact ⟨fun _ => rfl, rfl⟩
  | cons accept rest inductionHypothesis =>
      obtain ⟨reported, origin⟩ := @takeAccept_other state accept eventId (others accept (by simp))
      obtain ⟨restReported, restOrigin⟩ := inductionHypothesis
        (fun accept member => others accept (by simp [member])) (takeAccept state accept)
      exact ⟨fun finding => (restReported finding).trans (reported finding),
        restOrigin.trans origin⟩

/-- An accept that is due at its turn is taken in. -/
theorem takeAccept_due {state : WatchState} {accept : FoundAccept} (due : accept.Due state) :
    (takeAccept state accept).timesTaken accept.event.id =
        state.timesTaken accept.event.id + 1 ∧
      ((takeAccept state accept).timesReported .baselineAccepted accept.event.id =
          state.timesReported .baselineAccepted accept.event.id ∨
        (takeAccept state accept).history.origin accept.event.id =
          some (.accepted accept.event state.now (state.reading (keyOf accept.target)))) := by
  unfold takeAccept
  rw [if_neg (not_not.mpr due)]
  split
  · constructor
    · simp only [WatchState.timesTaken, timesReported_report]
      simp [Nat.add_assoc]
    · left
      simp [timesReported_report]
  · constructor
    · simp only [WatchState.timesTaken, adoptAccept, timesReported_report]
      simp only [WatchState.timesReported, WatchState.forgetFinding, WatchState.adopt]
      simp [Nat.add_right_comm]
    · exact Or.inr (Function.update_self _ _ _)

/-- Due accepts stay due while accepts of their wallet with earlier dates, or none
that are adopted, are taken in before them. -/
theorem foldl_takeAccept_due {accepts : List FoundAccept} {accept : FoundAccept}
    {state : WatchState}
    (inOrder : ∀ other ∈ accepts, keyOf other.target = keyOf accept.target →
      ¬ other.Refused state.now (state.reading (keyOf other.target)) →
      other.event.date < accept.event.date)
    (due : accept.Due state) : accept.Due (accepts.foldl takeAccept state) := by
  induction accepts generalizing state with
  | nil => exact due
  | cons first rest inductionHypothesis =>
      have scanned := takeAccept_scanned state first
      refine inductionHypothesis ?_ ?_
      · intro other member same accepted
        rw [scanned.now, scanned.reading] at accepted
        exact inOrder other (by simp [member]) same accepted
      · unfold takeAccept
        split
        · exact due
        · split
          · exact due
          next accepted =>
            by_cases same : keyOf first.target = keyOf accept.target
            · have earlier := inOrder first (by simp) same accepted
              intro known inUse
              rw [← same] at inUse
              have adopted : (adoptAccept state first).baselines (keyOf first.target) =
                  some first.baseline := Function.update_self _ _ _
              rw [adopted, Option.mem_some] at inUse
              rw [← inUse]
              exact earlier
            · intro known inUse
              have kept : (adoptAccept state first).baselines (keyOf accept.target) =
                  state.baselines (keyOf accept.target) :=
                Function.update_of_ne (Ne.symm same) _ _
              rw [kept] at inUse
              exact due known inUse

/-! ## A scan -/

/-- The accept and all events after it are dated after the newest date the scans
have come to; it is dated within the tolerance for the future; and accepts of its
wallet that are adopted before it in the same scan are dated before it. -/
def FoundAccept.InTurn (options : FleetWatcherOptions) (accept : FoundAccept)
    (state : WatchState) : Prop :=
  (∃ later, accept.event :: later <:+ state.events ∧
      ∀ other ∈ accept.event :: later, ∀ mark ∈ state.lastAcceptSyncAt, mark < other.date) ∧
    accept.event.date ≤ state.now + futureToleranceMs ∧
    ∀ earlier rest, state.foundAccepts options = earlier ++ accept :: rest →
      ∀ other ∈ earlier, keyOf other.target = keyOf accept.target →
        ¬ other.Refused state.now (state.reading (keyOf other.target)) →
        other.event.date < accept.event.date

/-- One accept was taken in once, and adopted from its event when it was not
rejected. -/
structure TakenOnce (state : WatchState) (event : WatchEvent) (now : Time)
    (reading : Option WalletReading) : Prop where
  once : state.timesTaken event.id = 1
  adopted : state.timesReported .baselineAccepted event.id = 1 →
    state.history.origin event.id = some (.accepted event now reading)

theorem syncAccepts_takes {state : WatchState} {event : WatchEvent} {accept : FoundAccept}
    (distinct : state.Distinct) (untaken : state.timesTaken event.id = 0)
    (found : foundAccept options event = some accept) (due : accept.Due state)
    (inTurn : accept.InTurn options state) :
    TakenOnce (syncAccepts options state) event state.now (state.reading (keyOf accept.target)) ∧
      WatermarkCovers (syncAccepts options state).lastAcceptSyncAt event.date := by
  obtain rfl := foundAccept_event found
  obtain ⟨⟨later, tail, newer⟩, inTime, inOrder⟩ := inTurn
  have seen : accept.event ∈ unseenEvents state.lastAcceptSyncAt state.events :=
    mem_rtakeWhile_of_suffix tail (by simpa using newer)
  have member : accept ∈ state.foundAccepts options :=
    List.mem_filterMap.mpr ⟨accept.event, seen, found⟩
  obtain ⟨earlier, rest, split⟩ := List.append_of_mem member
  have distinctFound : (((earlier ++ accept :: rest).map FoundAccept.event).map
      WatchEvent.id).Nodup := by
    rw [← split]
    exact distinct.sublist ((foundAccepts_sublist state).map WatchEvent.id)
  simp only [List.map_append, List.map_cons, List.map_map, List.nodup_append, List.nodup_cons,
    List.mem_map, List.mem_cons, Function.comp_apply] at distinctFound
  obtain ⟨-, ⟨restDiffers, -⟩, earlierDiffers⟩ := distinctFound
  set started : WatchState := { state with
    lastAcceptSyncAt := nextWatermark state.now state.lastAcceptSyncAt
      (unseenEvents state.lastAcceptSyncAt state.events)
    history := { state.history with synced := state.events.length } } with startedEq
  set turn := earlier.foldl takeAccept started with turnEq
  have scan : syncAccepts options state = rest.foldl takeAccept (takeAccept turn accept) := by
    rw [turnEq, ← List.foldl_cons, ← List.foldl_append, ← split]
    rfl
  have scanned := foldl_takeAccept_scanned earlier started
  obtain ⟨before, -⟩ := @foldl_takeAccept_other earlier accept.event.id
    (fun other isEarlier same => earlierDiffers _ ⟨other, isEarlier, rfl⟩ _ (Or.inl rfl) same)
    started
  obtain ⟨after, origin⟩ := @foldl_takeAccept_other rest accept.event.id
    (fun other isLater same => restDiffers ⟨other, isLater, same⟩) (takeAccept turn accept)
  have untakenReports : ∀ finding ∈ [FleetWatchFinding.baselineAccepted, .acceptRejected],
      turn.timesReported finding accept.event.id = 0 := by
    unfold WatchState.timesTaken at untaken
    have zero := Nat.add_eq_zero_iff.mp untaken
    intro finding known
    rw [before]
    rcases List.mem_pair.mp known with rfl | rfl
    · exact zero.1
    · exact zero.2
  have dueAtTurn : accept.Due turn := foldl_takeAccept_due (inOrder earlier rest split) due
  obtain ⟨taken, outcome⟩ := takeAccept_due dueAtTurn
  have untakenAtTurn : turn.timesTaken accept.event.id = 0 := by
    rw [WatchState.timesTaken, untakenReports _ (by simp), untakenReports _ (by simp)]
  have covered : WatermarkCovers started.lastAcceptSyncAt accept.event.date :=
    nextWatermark_covers seen inTime
  refine ⟨⟨?_, ?_⟩, ?_⟩
  · rw [scan, WatchState.timesTaken, after, after, ← WatchState.timesTaken, taken, untakenAtTurn]
  · intro adopted
    rw [scan, after] at adopted
    rw [scan, origin]
    rw [untakenReports _ (by simp)] at outcome
    rcases outcome with unreported | recorded
    · omega
    · rw [recorded, scanned.now, scanned.reading]
      rfl
  · rw [scan, (foldl_takeAccept_scanned rest _).watermark,
      (takeAccept_scanned turn accept).watermark, scanned.watermark]
    exact covered

/-- Accepts outside the scan are left alone. -/
theorem syncAccepts_other {state : WatchState} {eventId : String}
    (others : ∀ accept ∈ state.foundAccepts options, accept.event.id ≠ eventId) :
    (∀ finding, (syncAccepts options state).timesReported finding eventId =
        state.timesReported finding eventId) ∧
      (syncAccepts options state).history.origin eventId = state.history.origin eventId :=
  foldl_takeAccept_other others _

theorem syncAccepts_scanned (options : FleetWatcherOptions) (state : WatchState) :
    (syncAccepts options state).events = state.events ∧
      (syncAccepts options state).history.synced = state.events.length ∧
      (syncAccepts options state).lastAcceptSyncAt =
        nextWatermark state.now state.lastAcceptSyncAt
          (unseenEvents state.lastAcceptSyncAt state.events) :=
  ⟨(foldl_takeAccept_scanned _ _).events, (foldl_takeAccept_scanned _ _).synced,
    (foldl_takeAccept_scanned _ _).watermark⟩

/-! ## Runs of one watcher -/

/-- One watcher on the store, and every accept that it first sees in a scan, and
that is due there, comes in turn. -/
def AcceptsInTurn (options : FleetWatcherOptions) (state : WatchState) (command : WatchCommand) :
    Prop :=
  match command with
  | .restart => False
  | .syncAccepts => ∀ event ∈ state.events.drop state.history.synced, ∀ accept,
      foundAccept options event = some accept → accept.Due state → accept.InTurn options state
  | _ => True

/-- Only events that a scan saw were taken in. -/
structure Tracked (state : WatchState) : Prop where
  distinct : state.Distinct
  synced : state.history.synced ≤ state.events.length
  taken : ∀ eventId, state.timesTaken eventId ≠ 0 →
    ∃ event ∈ state.events.take state.history.synced, event.id = eventId

theorem Tracked.initial : Tracked .initial :=
  ⟨List.nodup_nil, le_refl _, fun _ taken => absurd rfl taken⟩

theorem Tracked.quiet {state next : WatchState} (tracked : Tracked state)
    (quiet : Quiet state next) : Tracked next where
  distinct := quiet.distinct tracked.distinct
  synced := by
    rw [quiet.synced]
    exact tracked.synced.trans quiet.events.length_le
  taken := by
    intro eventId taken
    rw [quiet.timesTaken] at taken
    obtain ⟨event, member, same⟩ := tracked.taken eventId taken
    refine ⟨event, ?_, same⟩
    rw [quiet.synced]
    obtain ⟨added, appended⟩ := quiet.events
    rw [← appended, List.take_append_of_le_length tracked.synced]
    exact member

theorem Tracked.syncAccepts {state : WatchState} (tracked : Tracked state) :
    Tracked (syncAccepts options state) := by
  obtain ⟨events, synced, -⟩ := syncAccepts_scanned options state
  refine ⟨?_, ?_, ?_⟩
  · unfold WatchState.Distinct
    rw [events]
    exact tracked.distinct
  · rw [synced, events]
  · intro eventId taken
    rw [synced, events, List.take_length]
    by_contra absent
    push Not at absent
    have unchanged := @syncAccepts_other options state eventId fun accept found =>
      absent _ ((foundAccepts_sublist state).subset (List.mem_map_of_mem found))
    rw [WatchState.timesTaken, unchanged.1, unchanged.1] at taken
    obtain ⟨event, member, same⟩ := tracked.taken eventId taken
    exact absent event (List.mem_of_mem_take member) same

/-- The event was taken in once, and the watermark has come to its date. -/
structure Settled (event : WatchEvent) (now : Time) (reading : Option WalletReading)
    (state : WatchState) : Prop where
  distinct : state.Distinct
  stands : event ∈ state.events
  covered : WatermarkCovers state.lastAcceptSyncAt event.date
  taken : TakenOnce state event now reading

section Settled

variable {event : WatchEvent} {now : Time} {reading : Option WalletReading}
  {state next : WatchState}

theorem Settled.quiet (settled : Settled event now reading state) (quiet : Quiet state next) :
    Settled event now reading next where
  distinct := quiet.distinct settled.distinct
  stands := quiet.events.subset settled.stands
  covered := quiet.watermark ▸ settled.covered
  taken :=
    { once := (quiet.timesTaken event.id).trans settled.taken.once
      adopted := by
        rw [quiet.reported, quiet.origins event settled.stands]
        exact settled.taken.adopted }

theorem Settled.syncAccepts (settled : Settled event now reading state) :
    Settled event now reading (syncAccepts options state) := by
  obtain ⟨events, -, watermark⟩ := syncAccepts_scanned options state
  have passed : ∀ accept ∈ state.foundAccepts options, accept.event.id ≠ event.id := by
    intro accept found same
    have stands : accept.event ∈ state.events :=
      (foundAccepts_sublist state).subset (List.mem_map_of_mem found)
    have theEvent := List.inj_on_of_nodup_map settled.distinct stands settled.stands same
    exact foundAccepts_uncovered found (theEvent ▸ settled.covered)
  obtain ⟨reported, origin⟩ := syncAccepts_other passed
  refine ⟨?_, events ▸ settled.stands, ?_, ⟨?_, ?_⟩⟩
  · unfold WatchState.Distinct
    rw [events]
    exact settled.distinct
  · rw [watermark]
    exact covered_nextWatermark _ settled.covered
  · rw [WatchState.timesTaken, reported, reported]
    exact settled.taken.once
  · rw [reported, origin]
    exact settled.taken.adopted

end Settled

/-- In a run of one watcher whose accepts come in turn, every well-formed accept
event of a watched wallet that is due at the first scan that sees it is taken in
by that scan, and never again. -/
theorem accepts_taken_once {before later : WatchState}
    (run : Machine.Reaches (watchStep options) (AcceptsInTurn options) .initial before)
    (allowed : AcceptsInTurn options before .syncAccepts) {event : WatchEvent}
    {accept : FoundAccept} (firstSeen : event ∈ before.events.drop before.history.synced)
    (wellFormed : foundAccept options event = some accept) (due : accept.Due before)
    (rest : Machine.Reaches (watchStep options) (AcceptsInTurn options)
      (syncAccepts options before) later) :
    TakenOnce later event before.now (before.reading (keyOf accept.target)) := by
  have tracked : Tracked before := by
    refine run.invariant .initial ?_
    intro state command next tracked inTurn stepped
    by_cases scans : command = .syncAccepts
    · subst scans
      cases stepped
      exact tracked.syncAccepts
    · have stays : command ≠ .restart := by
        rintro rfl
        exact inTurn
      exact tracked.quiet (watchStep_quiet stays scans stepped)
  have untaken : before.timesTaken event.id = 0 := by
    by_contra taken
    obtain ⟨seen, member, same⟩ := tracked.taken event.id taken
    have halves : before.events.take before.history.synced ++
        before.events.drop before.history.synced = before.events := List.take_append_drop _ _
    have distinct := tracked.distinct
    unfold WatchState.Distinct at distinct
    rw [← halves, List.map_append, List.nodup_append] at distinct
    exact distinct.2.2 _ (List.mem_map_of_mem member) _ (List.mem_map_of_mem firstSeen) same
  obtain ⟨taken, covered⟩ := syncAccepts_takes tracked.distinct untaken wellFormed due
    (allowed event firstSeen accept wellFormed due)
  obtain ⟨events, -, -⟩ := syncAccepts_scanned options before
  have start : Settled event before.now (before.reading (keyOf accept.target))
      (syncAccepts options before) :=
    ⟨tracked.syncAccepts.distinct, events ▸ List.mem_of_mem_drop firstSeen, covered, taken⟩
  have settled : Settled event before.now (before.reading (keyOf accept.target)) later := by
    refine rest.invariant start ?_
    intro state command next settled inTurn stepped
    by_cases scans : command = .syncAccepts
    · subst scans
      cases stepped
      exact settled.syncAccepts
    · have stays : command ≠ .restart := by
        rintro rfl
        exact inTurn
      exact settled.quiet (watchStep_quiet stays scans stepped)
  exact settled.taken

end Runs

/-! ## Examples -/

namespace WatchSample

/-- An event of another part of the service. -/
def other (date : Time) : WatchEvent where
  id := "evt_other"
  type := .other
  date := date
  data := {}

/-- The owner's accept of the wallet at a transaction count of six. -/
def accept (date : Time) : WatchEvent where
  id := "evt_accept"
  type := .accept
  date := date
  data :=
    { chainId := some .ethereum
      address := some "0x00000000000000000000000000000000000000a1"
      nonce := some 6
      balanceWei := some "900" }

/-- A first tick sees an event dated `seen`, and adopts the reading of the wallet
at the instant 100; then an accept dated 150 is committed, and the readings of the
next tick are in. -/
def commands (seen : Time) : List WatchCommand :=
  [.commit (other seen), .openTick 100 [some reading], .syncAccepts,
    .judgeAndAct records target reading (answers "evt_1" 100),
    .commit (accept 150), .openTick 160 [some ⟨6, 900⟩]]

/-- The state before the accept scan of the second tick. -/
def before (seen : Time) : WatchState :=
  Machine.applyAll (watchStep options) .initial (commands seen)

end WatchSample

/-- An accept that is dated a moment before an event the watcher saw is lost: the
scan stops at it. -/
theorem accepts_lost :
    WatchSample.accept 150 ∈
        (WatchSample.before 200).events.drop (WatchSample.before 200).history.synced ∧
      (∃ accept ∈ foundAccept WatchSample.options (WatchSample.accept 150),
        accept.Due (WatchSample.before 200)) ∧
      (syncAccepts WatchSample.options (WatchSample.before 200)).timesTaken "evt_accept" = 0 := by
  decide +kernel

namespace WatchSample

def found : FoundAccept where
  event := accept 150
  target := target
  nonce := 6
  balanceWei := "900"

theorem inTurn : found.InTurn options (before 90) := by
  refine ⟨⟨[], by decide +kernel, by decide +kernel⟩, by decide +kernel, ?_⟩
  intro earlier rest split
  have single : (before 90).foundAccepts options = [found] := by decide +kernel
  rw [single] at split
  cases earlier with
  | nil => simp
  | cons first others => simp at split

theorem allowed : AcceptsInTurn options (before 90) .syncAccepts := by
  intro event member taken wellFormed due
  have twoEvents : (before 90).events.drop (before 90).history.synced =
      [(before 90).events[1], accept 150] := by decide +kernel
  rw [twoEvents] at member
  rcases List.mem_pair.mp member with rfl | rfl
  · have nothing : foundAccept options (before 90).events[1] = none := by decide +kernel
    rw [nothing] at wellFormed
    cases wellFormed
  · have accepted : foundAccept options (accept 150) = some found := by decide +kernel
    rw [accepted] at wellFormed
    cases wellFormed
    exact inTurn

theorem run :
    Machine.Reaches (watchStep options) (AcceptsInTurn options) .initial (before 90) := by
  refine (Machine.Reaches.refl _).applyAll
    ⟨trivial, trivial, ?_, trivial, trivial, trivial, trivial⟩
  intro event member taken wellFormed
  obtain rfl : event = other 90 := List.mem_singleton.mp member
  have nothing : foundAccept options (other 90) = none := by decide +kernel
  rw [nothing] at wellFormed
  cases wellFormed

end WatchSample

/-- The same accept is adopted when the watcher has seen older events only. -/
theorem accepts_taken_once_sample :
    TakenOnce (syncAccepts WatchSample.options (WatchSample.before 90)) (WatchSample.accept 150)
      160 (some ⟨6, 900⟩) :=
  accepts_taken_once WatchSample.run WatchSample.allowed (by decide +kernel)
    (show foundAccept WatchSample.options (WatchSample.accept 150) = some WatchSample.found by
      decide +kernel) (by decide +kernel) (.refl _)

end MintBot
