import MintBot.Discovery.Markers
import MintBot.Discovery.Coverage

/-!
# What a restarted service remembers

A fresh service rebuilds its items from the stored events.  Only events of the type
`opportunity_scored` are read, but an opportunity whose band is not `log` is written as
`opportunity_notified`.  So the item of a contract is rebuilt from its last event exactly when
that event is of the first type and no earlier one carries a later time.
-/

namespace MintBot

open Fallible Machine

namespace DiscoveryMemory

/-! ## The latest event of a key -/

variable {chainId : ChainId} {key : Bool × String} {event kept : DiscoveryEvent}
  {events before after : List DiscoveryEvent}
  {latest : OrderedMap (Bool × String) DiscoveryEvent}

theorem keepLatest_other (another : restoredKey chainId event ≠ some key) :
    (keepLatest chainId latest event).get key = latest.get key := by
  have set {found : Bool × String} (isFound : restoredKey chainId event = some found) :
      (latest.set found event).get key = latest.get key :=
    OrderedMap.get_set_other fun same => another (same ▸ isFound)
  unfold keepLatest
  split
  · rfl
  · rename_i found isFound
    split
    · split
      · exact set isFound
      · rfl
    · exact set isFound

/-- An event is kept, unless the one of its key that is there is later. -/
theorem keepLatest_own (own : restoredKey chainId event = some key) :
    (keepLatest chainId latest event).get key =
      match latest.get key with
      | some prior => if prior.at_ ≤ event.at_ then some event else some prior
      | none => some event := by
  unfold keepLatest
  rw [own]
  dsimp only
  cases found : latest.get key with
  | none => exact OrderedMap.get_set_same
  | some prior =>
      dsimp only
      split
      · exact OrderedMap.get_set_same
      · exact found

theorem keepLatest_kept (own : restoredKey chainId event = some key) :
    ∃ kept, (keepLatest chainId latest event).get key = some kept ∧ event.at_ ≤ kept.at_ := by
  rw [keepLatest_own own]
  cases latest.get key with
  | none => exact ⟨event, rfl, le_rfl⟩
  | some prior =>
      dsimp only
      split
      · exact ⟨event, rfl, le_rfl⟩
      · rename_i later
        exact ⟨prior, rfl, (not_le.mp later).le⟩

theorem keepLatest_monotone {prior : DiscoveryEvent} (found : latest.get key = some prior) :
    ∃ kept, (keepLatest chainId latest event).get key = some kept ∧ prior.at_ ≤ kept.at_ := by
  by_cases own : restoredKey chainId event = some key
  · rw [keepLatest_own own, found]
    dsimp only
    split
    · rename_i below
      exact ⟨event, rfl, below⟩
    · exact ⟨prior, rfl, le_rfl⟩
  · exact ⟨prior, (keepLatest_other own).trans found, le_rfl⟩

theorem fold_monotone {prior : DiscoveryEvent} (found : latest.get key = some prior) :
    ∃ kept, (after.foldl (keepLatest chainId) latest).get key = some kept ∧
      prior.at_ ≤ kept.at_ := by
  induction after generalizing latest prior with
  | nil => exact ⟨prior, found, le_rfl⟩
  | cons event rest inductionHypothesis =>
      obtain ⟨middle, middleFound, first⟩ :
          ∃ kept, (keepLatest chainId latest event).get key = some kept ∧ prior.at_ ≤ kept.at_ :=
        keepLatest_monotone found
      obtain ⟨kept, keptFound, later⟩ := inductionHypothesis middleFound
      exact ⟨kept, keptFound, first.trans later⟩

theorem fold_others (others : ∀ event ∈ after, restoredKey chainId event ≠ some key) :
    (after.foldl (keepLatest chainId) latest).get key = latest.get key := by
  induction after generalizing latest with
  | nil => rfl
  | cons event rest inductionHypothesis =>
      rw [List.foldl_cons,
        inductionHypothesis fun other member => others other (List.mem_cons_of_mem _ member)]
      exact keepLatest_other (others event List.mem_cons_self)

theorem latestEvents_cons : latestEvents chainId (before ++ event :: after) =
    after.foldl (keepLatest chainId)
      (keepLatest chainId (latestEvents chainId before) event) := by
  simp only [latestEvents, List.foldl_append, List.foldl_cons]

/-- No event of a key is later than the one that is kept. -/
theorem latestEvents_bound (member : event ∈ events)
    (own : restoredKey chainId event = some key) :
    ∃ kept, (latestEvents chainId events).get key = some kept ∧ event.at_ ≤ kept.at_ := by
  obtain ⟨before, after, rfl⟩ := List.append_of_mem member
  obtain ⟨middle, found, first⟩ : ∃ kept,
      (keepLatest chainId (latestEvents chainId before) event).get key = some kept ∧
        event.at_ ≤ kept.at_ :=
    keepLatest_kept own
  rw [latestEvents_cons]
  obtain ⟨kept, keptFound, later⟩ := fold_monotone found
  exact ⟨kept, keptFound, first.trans later⟩

/-- The last event of a key is kept when none before it is later. -/
theorem latestEvents_last (own : restoredKey chainId event = some key)
    (earlier : ∀ other ∈ before, restoredKey chainId other = some key → other.at_ ≤ event.at_)
    (others : ∀ other ∈ after, restoredKey chainId other ≠ some key) :
    (latestEvents chainId (before ++ event :: after)).get key = some event := by
  rw [latestEvents_cons, fold_others others, keepLatest_own own]
  cases found : (latestEvents chainId before).get key with
  | none => rfl
  | some prior =>
      obtain ⟨member, priorOwn⟩ := mem_latestEvents (OrderedMap.mem_of_get found)
      exact if_pos (earlier prior member priorOwn)

theorem keepLatest_nodup (distinct : (latest.map Prod.fst).Nodup) :
    ((keepLatest chainId latest event).map Prod.fst).Nodup := by
  unfold keepLatest
  split
  · exact distinct
  · split
    · split
      · exact OrderedMap.nodup_set distinct
      · exact distinct
    · exact OrderedMap.nodup_set distinct

theorem latestEvents_nodup (events : List DiscoveryEvent) :
    ((latestEvents chainId events).map Prod.fst).Nodup := by
  have general (latest : OrderedMap (Bool × String) DiscoveryEvent)
      (distinct : (latest.map Prod.fst).Nodup) :
      ((events.foldl (keepLatest chainId) latest).map Prod.fst).Nodup := by
    induction events generalizing latest with
    | nil => exact distinct
    | cons event rest inductionHypothesis =>
        exact inductionHypothesis _ (keepLatest_nodup distinct)
  exact general [] List.nodup_nil

/-! ## The item of a contract after restoring -/

/-- The item that is set for an event, if one is. -/
def itemOf (now : Time) (event : DiscoveryEvent) : Option TrackedItem :=
  match event.data with
  | .opportunity data =>
      if isLowerAddress (toLowerCase data.contract) = true ∧
          ¬ convergenceWindowMs < now - data.lastActivityAt.getD event.at_ then
        some (restoredItem (toLowerCase data.contract) event.at_ data)
      else none
  | _ => none

variable {memory : DiscoveryMemory} {contract : String}

theorem restoreEvent_other (written : EventSound chainId event)
    (own : restoredKey chainId event = some key) (another : key ≠ (true, contract)) (now : Time) :
    (restoreEvent now memory event).tracked.get contract = memory.tracked.get contract := by
  unfold restoreEvent
  split
  · dsimp only
    split
    · split
      · split
        · unfold putCalendar
          dsimp only
          split
          · split <;> rfl
          · rfl
        · rfl
      · rfl
    · rfl
  · rename_i data isOpportunity
    simp only [restoredKey, isOpportunity] at own
    split at own
    · rename_i isOwn
      cases own
      simp only [EventSound, isOpportunity] at written
      have lower := (written isOwn.2).lower
      dsimp only
      split
      · split
        · rfl
        · refine OrderedMap.get_set_other fun same => another ?_
          rw [same, lower]
      · rfl
    · cases own
  · rfl

theorem restoreEvent_own (written : EventSound chainId event)
    (own : restoredKey chainId event = some (true, contract)) (now : Time) :
    (restoreEvent now memory event).tracked.get contract =
      (itemOf now event).or (memory.tracked.get contract) := by
  unfold restoreEvent itemOf
  split
  · rename_i data isCalendar
    simp only [restoredKey, isCalendar] at own
    split at own <;> cases own
  · rename_i data isOpportunity
    simp only [restoredKey, isOpportunity] at own
    split at own
    · rename_i isOwn
      cases own
      simp only [EventSound, isOpportunity] at written
      have lower := (written isOwn.2).lower
      rw [isOpportunity]
      dsimp only
      split
      · rename_i address
        split
        · rename_i quiet
          rw [if_neg fun due => due.2 quiet]
          rfl
        · rename_i recent
          rw [if_pos ⟨address, recent⟩]
          rw [lower]
          exact OrderedMap.get_set_same
      · rename_i noAddress
        rw [if_neg fun due => noAddress due.1]
        rfl
    · cases own
  · rename_i neither nor
    cases data : event.data with
    | opportunity data => exact absurd data (nor _)
    | calendarEntry data => exact absurd data (neither _)
    | _ => rfl

/-- The item of a contract is that of the event which is kept for it. -/
theorem restoreFold_get (now : Time)
    (known : ∀ entry ∈ latest, EventSound chainId entry.2 ∧
      restoredKey chainId entry.2 = some entry.1)
    (distinct : (latest.map Prod.fst).Nodup) (contract : String) :
    ((latest.map Prod.snd).foldl (restoreEvent now) memory).tracked.get contract =
      ((latest.get (true, contract)).bind (itemOf now)).or (memory.tracked.get contract) := by
  induction latest generalizing memory with
  | nil => rfl
  | cons entry rest inductionHypothesis =>
      obtain ⟨written, own⟩ := known entry List.mem_cons_self
      rw [List.map_cons, List.nodup_cons] at distinct
      have later := fun memory => @inductionHypothesis memory
        (fun other member => known other (List.mem_cons_of_mem _ member)) distinct.2
      rw [List.map_cons, List.foldl_cons, later, OrderedMap.get_cons]
      by_cases same : entry.1 = (true, contract)
      · have absent : OrderedMap.get rest (true, contract) = none := by
          refine OrderedMap.get_eq_none_iff.mpr fun other member otherSame => distinct.1 ?_
          rw [same, ← otherSame]
          exact List.mem_map.mpr ⟨other, member, rfl⟩
        rw [absent, if_pos same, restoreEvent_own written (own.trans (congrArg some same))]
        rfl
      · rw [if_neg same, restoreEvent_other written own same]

theorem restore_get (options : DiscoveryOptions) (now : Time)
    (written : ∀ event ∈ events, EventSound options.chainId event) (contract : String) :
    (restore options now events {}).tracked.get contract =
      ((latestEvents options.chainId events).get (true, contract)).bind (itemOf now) := by
  have known : ∀ entry ∈ latestEvents options.chainId events,
      EventSound options.chainId entry.2 ∧
        restoredKey options.chainId entry.2 = some entry.1 := by
    intro entry member
    obtain ⟨stored, own⟩ := mem_latestEvents member
    exact ⟨written _ stored, own⟩
  unfold restore
  rw [restoreFold_get now known (latestEvents_nodup events)]
  exact Option.or_none

theorem restoredItem_watched_iff (contract : String) (at_ : Time) {data : OpportunityData}
    (written : data.Written) (address : String) :
    address ∈ (restoredItem contract at_ data).watched.map Prod.fst ↔
      address ∈ data.watchedMinters := by
  have general (addresses : List String) (value : Time) (watched : OrderedMap String Time)
      (lower : ∀ known ∈ addresses, toLowerCase known = known) :
      address ∈ (addresses.foldl (fun watched known =>
          OrderedMap.set watched (toLowerCase known) value) watched).map Prod.fst ↔
        address ∈ addresses ∨ address ∈ watched.map Prod.fst := by
    induction addresses generalizing watched with
    | nil => simp
    | cons known rest inductionHypothesis =>
        rw [List.foldl_cons,
          inductionHypothesis _ fun other member => lower other (List.mem_cons_of_mem _ member),
          OrderedMap.mem_keys_set, lower known List.mem_cons_self, List.mem_cons]
        tauto
  rw [show (restoredItem contract at_ data).watched = data.watchedMinters.foldl
      (fun watched known => OrderedMap.set watched (toLowerCase known)
        (data.lastActivityAt.getD at_)) [] from rfl, general _ _ _ written.watched]
  simp

end DiscoveryMemory

/-! ## A restarted service -/

/-- An opportunity event of a contract, of either type. -/
def ownOpportunity (chainId : ChainId) (contract : String) (event : DiscoveryEvent) :
    Option (DiscoveryEvent × OpportunityData) :=
  match event.data with
  | .opportunity data =>
      if data.chainId = chainId ∧ data.contract = contract then some (event, data) else none
  | _ => none

/-- The opportunity event of a contract that was written last. -/
def lastOpportunity (chainId : ChainId) (contract : String) (events : List DiscoveryEvent) :
    Option (DiscoveryEvent × OpportunityData) :=
  (events.filterMap (ownOpportunity chainId contract)).getLast?

/-- The last activity is at most the convergence window old. -/
def IsRecent (now : Time) (event : DiscoveryEvent) (data : OpportunityData) : Prop :=
  now - data.lastActivityAt.getD event.at_ ≤ convergenceWindowMs

instance (now : Time) (event : DiscoveryEvent) (data : OpportunityData) :
    Decidable (IsRecent now event data) :=
  inferInstanceAs (Decidable (_ ≤ _))

/-- A fresh service has, for every recent contract, the mark and the watched minters of the
opportunity event that was written last. -/
def RestartKept (options : DiscoveryOptions) (now : Time) (events : List DiscoveryEvent) : Prop :=
  ∀ contract event data,
    lastOpportunity options.chainId contract events = some (event, data) →
    IsRecent now event data →
    ∃ item, (DiscoveryMemory.restore options now events {}).tracked.get contract = some item ∧
      (∃ mark, item.lastEmit = some mark ∧ mark.at_ = event.at_ ∧
        data.score = some mark.score ∧ data.band = some mark.band) ∧
      ∀ address, address ∈ item.watched.map Prod.fst ↔ address ∈ data.watchedMinters

/-- Of every recent contract, the opportunity event that was written last is of the type that
is restored, and no other event of that type carries a later time. -/
def LastRestored (options : DiscoveryOptions) (now : Time) (events : List DiscoveryEvent) : Prop :=
  ∀ contract event data,
    lastOpportunity options.chainId contract events = some (event, data) →
    IsRecent now event data →
    data.disposition = .scored ∧
      ∀ other ∈ events, ∀ otherData, ownOpportunity options.chainId contract other =
        some (other, otherData) → otherData.disposition = .scored → other.at_ ≤ event.at_

variable {options : DiscoveryOptions} {contract : String} {event : DiscoveryEvent}
  {data : OpportunityData} {events : List DiscoveryEvent}

theorem ownOpportunity_eq_some {found : DiscoveryEvent × OpportunityData} :
    ownOpportunity options.chainId contract event = some found ↔
      found.1 = event ∧ event.data = .opportunity found.2 ∧ found.2.chainId = options.chainId ∧
        found.2.contract = contract := by
  unfold ownOpportunity
  split
  · rename_i data isOpportunity
    split
    · rename_i own
      constructor
      · rintro ⟨⟩
        exact ⟨rfl, isOpportunity, own⟩
      · rintro ⟨same, isFound, -⟩
        rw [isOpportunity] at isFound
        cases isFound
        rw [← same]
    · rename_i another
      constructor
      · rintro ⟨⟩
      · rintro ⟨-, isFound, own⟩
        rw [isOpportunity] at isFound
        cases isFound
        exact absurd own another
  · rename_i other
    constructor
    · rintro ⟨⟩
    · rintro ⟨-, isFound, -⟩
      exact absurd isFound (other _)

/-- An event of a contract is restored when it is of the right type. -/
theorem restoredKey_opportunity :
    DiscoveryMemory.restoredKey options.chainId event = some (true, contract) ↔
      ∃ data, ownOpportunity options.chainId contract event = some (event, data) ∧
        data.disposition = .scored := by
  unfold DiscoveryMemory.restoredKey
  split
  · rename_i data isOpportunity
    constructor
    · intro own
      split at own
      · rename_i isOwn
        cases own
        exact ⟨data, ownOpportunity_eq_some.mpr ⟨rfl, isOpportunity, isOwn.2, rfl⟩, isOwn.1⟩
      · cases own
    · rintro ⟨found, own, scored⟩
      obtain ⟨-, isFound, chain, same⟩ := ownOpportunity_eq_some.mp own
      rw [isOpportunity] at isFound
      cases isFound
      rw [if_pos ⟨scored, chain⟩, same]
  · rename_i isCalendar
    constructor
    · intro own
      split at own <;> cases own
    · rintro ⟨found, own, -⟩
      obtain ⟨-, isFound, -⟩ := ownOpportunity_eq_some.mp own
      rw [isCalendar] at isFound
      cases isFound
  · rename_i neither nor
    constructor
    · rintro ⟨⟩
    · rintro ⟨found, own, -⟩
      obtain ⟨-, isFound, -⟩ := ownOpportunity_eq_some.mp own
      exact absurd isFound (neither _)

theorem lastOpportunity_eq_some {found : DiscoveryEvent × OpportunityData}
    (last : lastOpportunity options.chainId contract events = some found) :
    ∃ before after, events = before ++ found.1 :: after ∧
      ownOpportunity options.chainId contract found.1 = some found ∧
      ∀ other ∈ after, ownOpportunity options.chainId contract other = none := by
  obtain ⟨earlier, split⟩ := List.getLast?_eq_some_iff.mp last
  obtain ⟨before, rest, rfl, -, tail⟩ := List.filterMap_eq_append_iff.mp split
  obtain ⟨between, event, after, rfl, -, own, others⟩ := List.filterMap_eq_cons_iff.mp tail
  have same := (ownOpportunity_eq_some.mp own).1
  refine ⟨before ++ between, after, ?_, same ▸ own, List.filterMap_eq_nil_iff.mp others⟩
  rw [same, List.append_assoc]

namespace DiscoveryState

theorem written_of_own (sound : ∀ event ∈ events, DiscoveryMemory.EventSound options.chainId event)
    (member : event ∈ events)
    (own : ownOpportunity options.chainId contract event = some (event, data)) : data.Written := by
  obtain ⟨-, isOpportunity, chain, -⟩ := ownOpportunity_eq_some.mp own
  have written := sound event member
  simp only [DiscoveryMemory.EventSound, isOpportunity] at written
  exact written chain

/-- The mark of a restored item says which event it came from. -/
theorem itemOf_eq_some {now : Time} {item : TrackedItem}
    (set : DiscoveryMemory.itemOf now event = some item) :
    ∃ data, event.data = .opportunity data ∧ item.lastEmit =
      some { at_ := event.at_, score := data.score.getD 0, band := data.band.getD .log } := by
  unfold DiscoveryMemory.itemOf at set
  split at set
  · rename_i data isOpportunity
    split at set
    · cases set
      exact ⟨data, isOpportunity, rfl⟩
    · cases set
  · cases set

theorem lastRestored_of_kept
    (sound : ∀ event ∈ events, DiscoveryMemory.EventSound options.chainId event) {now : Time}
    (kept : RestartKept options now events) : LastRestored options now events := by
  intro contract event data last recent
  obtain ⟨item, found, ⟨mark, lastEmit, sameTime, -, sameBand⟩, -⟩ :=
    kept contract event data last recent
  rw [DiscoveryMemory.restore_get options now sound] at found
  obtain ⟨source, latest, set⟩ := Option.bind_eq_some_iff.mp found
  obtain ⟨stored, ownSource⟩ := DiscoveryMemory.mem_latestEvents (OrderedMap.mem_of_get latest)
  obtain ⟨sourceData, ownOpp, scored⟩ := restoredKey_opportunity.mp ownSource
  obtain ⟨fromData, isOpportunity, fromEmit⟩ := itemOf_eq_some set
  obtain ⟨-, isSource, -⟩ := ownOpportunity_eq_some.mp ownOpp
  rw [isOpportunity] at isSource
  cases isSource
  rw [fromEmit] at lastEmit
  cases lastEmit
  constructor
  · obtain ⟨before, after, rfl, own, -⟩ := lastOpportunity_eq_some last
    have written := written_of_own sound (by simp) own
    have sourceBand := (written_of_own sound stored ownOpp).disposition.mp scored
    refine written.disposition.mpr ?_
    rw [sameBand, sourceBand]
    rfl
  · intro other member otherData own otherScored
    obtain ⟨latestOther, sameKey, below⟩ := DiscoveryMemory.latestEvents_bound member
      (restoredKey_opportunity.mpr ⟨otherData, own, otherScored⟩)
    rw [latest] at sameKey
    cases sameKey
    exact below.trans_eq sameTime

theorem kept_of_lastRestored
    (sound : ∀ event ∈ events, DiscoveryMemory.EventSound options.chainId event) {now : Time}
    (restored : LastRestored options now events) : RestartKept options now events := by
  intro contract event data last recent
  obtain ⟨scored, latest⟩ := restored contract event data last recent
  obtain ⟨before, after, rfl, own, others⟩ := lastOpportunity_eq_some last
  have written := written_of_own sound (by simp) own
  obtain ⟨-, isOpportunity, -, rfl⟩ := ownOpportunity_eq_some.mp own
  have kept : (DiscoveryMemory.latestEvents options.chainId (before ++ event :: after)).get
      (true, data.contract) = some event := by
    refine DiscoveryMemory.latestEvents_last (restoredKey_opportunity.mpr ⟨data, own, scored⟩)
      (fun other member ownOther => ?_) (fun other member ownOther => ?_)
    · obtain ⟨otherData, otherOwn, otherScored⟩ := restoredKey_opportunity.mp ownOther
      exact latest other (List.mem_append_left _ member) otherData otherOwn otherScored
    · obtain ⟨otherData, otherOwn, -⟩ := restoredKey_opportunity.mp ownOther
      rw [others other member] at otherOwn
      cases otherOwn
  obtain ⟨score, hasScore⟩ := Option.isSome_iff_exists.mp written.scored
  obtain ⟨band, hasBand⟩ := Option.isSome_iff_exists.mp written.banded
  refine ⟨DiscoveryMemory.restoredItem data.contract event.at_ data, ?_,
    ⟨{ at_ := event.at_, score := data.score.getD 0, band := data.band.getD .log }, rfl, rfl,
      ?_, ?_⟩, DiscoveryMemory.restoredItem_watched_iff _ _ written⟩
  · rw [DiscoveryMemory.restore_get options now sound, kept, Option.bind_some]
    unfold DiscoveryMemory.itemOf
    rw [isOpportunity]
    dsimp only
    rw [written.lower, if_pos ⟨written.address, not_lt.mpr recent⟩]
  · rw [hasScore, Option.getD_some]
  · rw [hasBand, Option.getD_some]

theorem restart_kept_iff {state : DiscoveryState}
    (run : Reaches (step options) (fun _ _ => True) {} state) (now : Time) :
    RestartKept options now state.events ↔ LastRestored options now state.events :=
  have sound := (sound_of_reaches run).events
  ⟨lastRestored_of_kept sound, kept_of_lastRestored sound⟩

/-- A tick without watched wallets, whose opportunity has the band `log`. -/
def quietTick : List DiscoveryCommand :=
  [.begin 0 (some 1000) [], .scan sampleScan 0, .count true, .count true,
   .enrich 0 sampleReads, .announce 0 (fun _ => none) true (fun _ => some true),
   .list 0 (fun _ => none) true (fun _ => some true), .advance true, .endScans, .prune 0]

theorem restart_kept_quiet :
    RestartKept sampleOptions 1 (applyAll (step sampleOptions) {} (.boot :: quietTick)).events ↔
      LastRestored sampleOptions 1
        (applyAll (step sampleOptions) {} (.boot :: quietTick)).events :=
  restart_kept_iff ((Reaches.refl _).applyAll (allowed_true _ _ _)) 1

/-- A tick whose opportunity has the band `notify`. -/
def notifiedState : DiscoveryState :=
  applyAll (step sampleOptions) {} (.boot :: sampleTick 0 true)

/-- An opportunity that was notified is unknown after a restart. -/
theorem notified_forgotten :
    ¬ ∀ options state, Reaches (step options) (fun _ _ => True) {} state →
      ∀ now, RestartKept options now state.events := by
  intro kept
  have notified := kept sampleOptions notifiedState
    ((Reaches.refl _).applyAll (allowed_true _ _ _)) 1 sampleAddress.text
  have written : (lastOpportunity sampleOptions.chainId sampleAddress.text
      notifiedState.events).any (fun found => IsRecent 1 found.1 found.2) = true := by
    decide +kernel
  have absent : ((DiscoveryMemory.restore sampleOptions 1 notifiedState.events {}).tracked.get
      sampleAddress.text).isNone = true := by
    decide +kernel
  obtain ⟨⟨event, data⟩, last, recent⟩ := (Option.any_eq_true _ _).mp written
  obtain ⟨item, found, -⟩ := notified event data last (of_decide_eq_true recent)
  rw [found] at absent
  cases absent

end DiscoveryState

end MintBot
