import MintBot.Discovery.Run

/-!
# Memory and the events it leaves

Counting, enriching and pruning change what is known about a contract, but never what was
last announced about it.  Only the two announcing passes set new marks, and only restoring
takes marks over from events.
-/

namespace MintBot

theorem toLowerCase_toLowerCase (text : String) :
    toLowerCase (toLowerCase text) = toLowerCase text := by
  simp only [toLowerCase, String.toList_ofList, List.map_map]
  congr 1
  exact List.map_congr_left fun char _ => toLower_toLower char

/-- The texts of an item are in lower case, and its contract is an address. -/
structure TrackedItem.Sound (item : TrackedItem) : Prop where
  lower : toLowerCase item.contract = item.contract
  address : isLowerAddress item.contract = true
  watched : ∀ seen ∈ item.watched, toLowerCase seen.1 = seen.1

/-- Neither time of a drop is negative. -/
structure DropSnapshot.Dated (drop : DropSnapshot) : Prop where
  starts : 0 ≤ drop.startTime
  ends : 0 ≤ drop.endTime

theorem dated_of_sanitizeDrop {raw drop : DropSnapshot} (valid : sanitizeDrop raw = some drop) :
    drop.Dated := by
  unfold sanitizeDrop at valid
  split at valid
  · cases valid
  · rename_i accepted
    have starts : validChainTime raw.startTime = true := by
      by_contra invalid
      exact accepted (.inl (by simpa using invalid))
    simp only [validChainTime, Bool.and_eq_true, decide_eq_true_eq] at starts
    split at valid
    · rename_i ends
      simp only [validChainTime, Bool.and_eq_true, decide_eq_true_eq] at ends
      cases valid
      exact ⟨starts.1, ends.1⟩
    · cases valid
      exact ⟨starts.1, le_rfl⟩

/-- The data of an opportunity event, as the service writes it. -/
structure OpportunityData.Written (data : OpportunityData) : Prop where
  lower : toLowerCase data.contract = data.contract
  address : isLowerAddress data.contract = true
  scored : data.score.isSome = true
  banded : data.band.isSome = true
  dated : data.lastActivityAt.isSome = true
  disposition : data.disposition = .scored ↔ data.band = some .log
  watched : ∀ address ∈ data.watchedMinters, toLowerCase address = address

/-- The data of a calendar event, as the service writes it. -/
structure CalendarData.Written (data : CalendarData) : Prop where
  lower : toLowerCase data.contract = data.contract
  starts : ∀ start ∈ data.openingAt, 0 ≤ start
  ends : ∀ close ∈ data.closingAt, 0 ≤ close

namespace DiscoveryMemory

structure Sound (memory : DiscoveryMemory) : Prop where
  tracked : ∀ entry ∈ memory.tracked, entry.1 = entry.2.contract ∧ entry.2.Sound
  calendar : ∀ entry ∈ memory.calendar, toLowerCase entry.1 = entry.1 ∧ entry.2.drop.Dated

/-- The mark of an item is that of an item of the same contract, or it has none. -/
def MarkKept (memory : DiscoveryMemory) (item : TrackedItem) : Prop :=
  item.lastEmit = none ∨ ∃ before ∈ memory.tracked,
    before.2.contract = item.contract ∧ before.2.lastEmit = item.lastEmit

def DateKept (memory : DiscoveryMemory) (entry : String × CalendarItem) : Prop :=
  entry.2.lastEmit = none ∨ ∃ before ∈ memory.calendar,
    before.1 = entry.1 ∧ before.2.lastEmit = entry.2.lastEmit

/-- A memory that learned something, but announced nothing. -/
structure Derived (old new : DiscoveryMemory) : Prop where
  sound : new.Sound
  tracked : ∀ entry ∈ new.tracked, old.MarkKept entry.2
  calendar : ∀ entry ∈ new.calendar, old.DateKept entry
  identities : ∀ identity ∈ new.priceAlertIdentities, identity ∈ old.priceAlertIdentities

variable {memory middle new : DiscoveryMemory}

theorem markKept_self {entry : String × TrackedItem} (member : entry ∈ memory.tracked) :
    memory.MarkKept entry.2 :=
  .inr ⟨entry, member, rfl, rfl⟩

theorem dateKept_self {entry : String × CalendarItem} (member : entry ∈ memory.calendar) :
    memory.DateKept entry :=
  .inr ⟨entry, member, rfl, rfl⟩

theorem Derived.refl (sound : memory.Sound) : Derived memory memory where
  sound := sound
  tracked := fun _ => markKept_self
  calendar := fun _ => dateKept_self
  identities := fun _ => id

theorem MarkKept.trans {item : TrackedItem} (first : Derived memory middle)
    (kept : middle.MarkKept item) : memory.MarkKept item := by
  rcases kept with none | ⟨before, member, sameContract, sameMark⟩
  · exact .inl none
  · rcases first.tracked before member with none | ⟨earlier, earlierMember, contract, mark⟩
    · exact .inl (sameMark ▸ none)
    · exact .inr ⟨earlier, earlierMember, contract.trans sameContract, mark.trans sameMark⟩

theorem Derived.trans (first : Derived memory middle) (second : Derived middle new) :
    Derived memory new where
  sound := second.sound
  tracked := fun entry member => (second.tracked entry member).trans first
  calendar := by
    intro entry member
    rcases second.calendar entry member with none | ⟨before, beforeMember, key, mark⟩
    · exact .inl none
    · rcases first.calendar before beforeMember with none | ⟨earlier, earlierMember, key', mark'⟩
      · exact .inl (mark ▸ none)
      · exact .inr ⟨earlier, earlierMember, key'.trans key, mark'.trans mark⟩
  identities := fun identity member => first.identities identity (second.identities identity member)

/-- An item is set whose mark was there before. -/
theorem Derived.setItem (sound : memory.Sound) {item : TrackedItem} (itemSound : item.Sound)
    (kept : memory.MarkKept item) {contract : String} (key : contract = item.contract) :
    Derived memory { memory with tracked := memory.tracked.set contract item } := by
  refine ⟨⟨fun entry member => ?_, sound.calendar⟩, fun entry member => ?_,
    fun _ => dateKept_self, fun _ => id⟩
  · rcases OrderedMap.mem_set member with rfl | before
    · exact ⟨key, itemSound⟩
    · exact sound.tracked entry before
  · rcases OrderedMap.mem_set member with rfl | before
    · exact kept
    · exact markKept_self before

/-- An item is changed, but neither its contract nor its mark. -/
theorem Derived.changeItem (sound : memory.Sound) {before item : TrackedItem}
    (kept : memory.MarkKept before) (sameContract : item.contract = before.contract)
    (sameMark : item.lastEmit = before.lastEmit) (itemSound : item.Sound) {contract : String}
    (key : contract = before.contract) :
    Derived memory { memory with tracked := memory.tracked.set contract item } := by
  refine .setItem sound itemSound ?_ (key.trans sameContract.symm)
  rcases kept with none | ⟨earlier, member, earlierContract, earlierMark⟩
  · exact .inl (sameMark.trans none)
  · exact .inr ⟨earlier, member, earlierContract.trans sameContract.symm,
      earlierMark.trans sameMark.symm⟩

theorem found_sound (sound : memory.Sound) {contract : String} {item : TrackedItem}
    (found : memory.tracked.get contract = some item) :
    contract = item.contract ∧ item.Sound ∧ memory.MarkKept item := by
  have member := OrderedMap.mem_of_get found
  exact ⟨(sound.tracked _ member).1, (sound.tracked _ member).2, markKept_self member⟩

theorem Derived.putCalendar (sound : memory.Sound) {contract : String}
    (lower : toLowerCase contract = contract) {drop : DropSnapshot} (dated : drop.Dated) :
    Derived memory (memory.putCalendar contract drop) := by
  have entries : ∀ entry ∈ memory.calendar.set contract
      { drop := drop
        lastEmit := (Option.none).or
          ((memory.calendar.get contract).bind CalendarItem.lastEmit) },
      (toLowerCase entry.1 = entry.1 ∧ entry.2.drop.Dated) ∧ memory.DateKept entry := by
    intro entry member
    rcases OrderedMap.mem_set member with rfl | before
    · refine ⟨⟨lower, dated⟩, ?_⟩
      cases found : memory.calendar.get contract with
      | none => exact .inl rfl
      | some item => exact .inr ⟨_, OrderedMap.mem_of_get found, rfl, rfl⟩
    · exact ⟨sound.calendar entry before, dateKept_self before⟩
  unfold DiscoveryMemory.putCalendar
  dsimp only
  split
  · split
    · exact ⟨⟨sound.tracked, fun entry member => (entries entry member).1⟩,
        fun _ => markKept_self, fun entry member => (entries entry member).2, fun _ => id⟩
    · exact ⟨⟨sound.tracked, fun entry member => (entries entry (OrderedMap.mem_delete member)).1⟩,
        fun _ => markKept_self, fun entry member => (entries entry (OrderedMap.mem_delete member)).2,
        fun _ => OrderedMap.mem_delete⟩
  · exact ⟨⟨sound.tracked, fun entry member => (entries entry member).1⟩,
      fun _ => markKept_self, fun entry member => (entries entry member).2, fun _ => id⟩

theorem Derived.firstSighting (sound : memory.Sound) (sighting : Option Sighting) :
    Derived memory (memory.firstSighting sighting).2 := by
  unfold DiscoveryMemory.firstSighting
  split
  · exact .refl sound
  · split
    · exact .refl sound
    · exact ⟨⟨sound.tracked, sound.calendar⟩, fun _ => markKept_self, fun _ => dateKept_self,
        fun _ => id⟩

/-- The item of a contract, and a memory that has it. -/
theorem track_derived (sound : memory.Sound) (address : ContractAddress) (at_ : Time) :
    Derived memory (memory.track address at_).2 ∧
      (memory.track address at_).1.contract = address.lower ∧
      (memory.track address at_).1.Sound ∧
      (memory.track address at_).2.MarkKept (memory.track address at_).1 := by
  unfold DiscoveryMemory.track
  dsimp only
  split
  · rename_i item found
    obtain ⟨key, itemSound, kept⟩ := found_sound sound found
    exact ⟨.refl sound, key.symm, itemSound, kept⟩
  · have fresh : TrackedItem.Sound
        { contract := address.lower, firstSeenAt := at_, lastActivityAt := at_
          drop := (memory.calendar.get address.lower).map CalendarItem.drop } :=
      ⟨toLowerCase_toLowerCase _, address.valid, fun _ member => nomatch member⟩
    have set := Derived.setItem sound fresh (.inl rfl) rfl
    refine ⟨?_, rfl, fresh, .inl rfl⟩
    split
    · split
      · exact ⟨⟨fun entry member => set.sound.tracked entry (OrderedMap.mem_delete member),
          sound.calendar⟩, fun entry member => set.tracked entry (OrderedMap.mem_delete member),
          set.calendar, set.identities⟩
      · exact set
    · exact set

theorem Derived.countMint (sound : memory.Sound) (watched : List String) (at_ : Time)
    (mint : ObservedMint) : Derived memory (countMint watched at_ mint memory) := by
  obtain ⟨derived, -, itemSound, kept⟩ := track_derived sound mint.nftContract at_
  refine derived.trans (Derived.changeItem derived.sound kept ?_ ?_ ?_ rfl)
  · rfl
  · rfl
  refine ⟨itemSound.lower, itemSound.address, fun seen member => ?_⟩
  dsimp only at member
  split at member
  · rcases OrderedMap.mem_set member with rfl | before
    · exact toLowerCase_toLowerCase _
    · exact itemSound.watched seen before
  · exact itemSound.watched seen member

theorem Derived.countReceived (watched : List String) (at_ : Time)
    {state : DiscoveryMemory × List String} (sound : state.1.Sound) (mint : ObservedWatchedMint) :
    Derived state.1 (countReceived watched at_ state mint).1 := by
  unfold DiscoveryMemory.countReceived
  split
  · exact .refl sound
  · dsimp only
    have sighted := Derived.firstSighting sound
      (sightingOf .watched mint.txHash mint.logIndex)
    split
    · exact sighted
    · obtain ⟨derived, -, itemSound, kept⟩ := track_derived sighted.sound mint.nftContract at_
      refine sighted.trans (derived.trans (Derived.changeItem derived.sound kept ?_ ?_ ?_ rfl))
      · rfl
      · rfl
      · exact ⟨itemSound.lower, itemSound.address, itemSound.watched⟩

theorem Derived.countReceived_all (watched : List String) (at_ : Time)
    (mints : List ObservedWatchedMint) {state : DiscoveryMemory × List String}
    (sound : state.1.Sound) :
    Derived state.1 (mints.foldl (DiscoveryMemory.countReceived watched at_) state).1 := by
  induction mints generalizing state with
  | nil => exact .refl sound
  | cons mint rest inductionHypothesis =>
      have first := Derived.countReceived watched at_ sound mint
      exact first.trans (inductionHypothesis first.sound)

theorem Derived.updateDrop (at_ : Time) (sound : memory.Sound) (update : ObservedDropUpdate) :
    Derived memory (updateDrop at_ memory update) := by
  unfold DiscoveryMemory.updateDrop
  dsimp only
  split
  · exact .refl sound
  · rename_i drop valid
    have put := Derived.putCalendar sound (toLowerCase_toLowerCase update.nftContract.text)
      (dated_of_sanitizeDrop valid)
    split
    · rename_i item found
      obtain ⟨key, itemSound, kept⟩ := found_sound put.sound found
      refine put.trans (Derived.changeItem put.sound kept ?_ ?_ ?_ key)
      · rfl
      · rfl
      · exact ⟨itemSound.lower, itemSound.address, itemSound.watched⟩
    · exact put

theorem Derived.updateDrop_all (at_ : Time) (updates : List ObservedDropUpdate)
    (sound : memory.Sound) :
    Derived memory (updates.foldl (DiscoveryMemory.updateDrop at_) memory) := by
  induction updates generalizing memory with
  | nil => exact .refl sound
  | cons update rest inductionHypothesis =>
      have first := Derived.updateDrop at_ sound update
      exact first.trans (inductionHypothesis first.sound)

theorem Derived.enrichDrop (now : Time) (raw : Option DropSnapshot) {item : TrackedItem}
    (sound : memory.Sound) (itemSound : item.Sound) (kept : memory.MarkKept item) :
    Derived memory (enrichDrop now raw item memory) := by
  unfold DiscoveryMemory.enrichDrop
  split
  · refine .changeItem sound kept ?_ ?_ ?_ rfl
    · rfl
    · rfl
    · exact ⟨itemSound.lower, itemSound.address, itemSound.watched⟩
  · rename_i drop valid
    obtain ⟨before, -, sanitized⟩ := Option.bind_eq_some_iff.mp valid
    have set : Derived memory { memory with
        tracked := memory.tracked.set item.contract
          { item with
            dropReadAt := some now
            drop := some drop
            priceWei := item.priceWei.or (some drop.priceWei) } } := by
      refine .changeItem sound kept ?_ ?_ ?_ rfl
      · rfl
      · rfl
      · exact ⟨itemSound.lower, itemSound.address, itemSound.watched⟩
    exact set.trans (Derived.putCalendar set.sound itemSound.lower (dated_of_sanitizeDrop sanitized))

theorem enrichCode_kept {reads : EnrichReads} {item coded : TrackedItem}
    (read : enrichCode reads item = some coded) :
    ∃ code, coded = { item with hasCode := code } := by
  unfold enrichCode at read
  split at read
  · cases read
    exact ⟨item.hasCode, rfl⟩
  · obtain ⟨code, -, rfl⟩ := Option.map_eq_some_iff.mp read
    exact ⟨code, rfl⟩

theorem Derived.enrichContract (now : Time) (reads : EnrichReads) (sound : memory.Sound)
    (contract : String) : Derived memory (enrichContract now reads memory contract).2 := by
  unfold DiscoveryMemory.enrichContract
  split
  · exact .refl sound
  · rename_i item found
    obtain ⟨key, itemSound, kept⟩ := found_sound sound found
    split
    · exact .refl sound
    · rename_i coded read
      obtain ⟨code, rfl⟩ := enrichCode_kept read
      have codedSound : TrackedItem.Sound { item with hasCode := code } :=
        ⟨itemSound.lower, itemSound.address, itemSound.watched⟩
      have set : Derived memory { memory with
          tracked := memory.tracked.set contract { item with hasCode := code } } := by
        refine .changeItem sound kept ?_ ?_ codedSound key
        · rfl
        · rfl
      dsimp only
      split
      · split
        · exact set
        · have member : (({ memory with
              tracked := memory.tracked.set contract { item with hasCode := code } } :
                DiscoveryMemory)).MarkKept { item with hasCode := code } :=
            markKept_self (OrderedMap.mem_of_get OrderedMap.get_set_same)
          exact set.trans (Derived.enrichDrop now _ set.sound codedSound member)
      · exact set

theorem Derived.enrich (now : Time) (reads : EnrichReads) (contracts : List String)
    (sound : memory.Sound) : Derived memory (enrich now reads contracts memory).2 := by
  induction contracts generalizing memory with
  | nil => exact .refl sound
  | cons contract rest inductionHypothesis =>
      have first := Derived.enrichContract now reads sound contract
      unfold DiscoveryMemory.enrich
      dsimp only
      split
      · exact first.trans (inductionHypothesis first.sound)
      · exact first

theorem Derived.prune (now : Time) (sound : memory.Sound) :
    Derived memory (memory.prune now) := by
  have entries : ∀ entry ∈ (memory.prune now).tracked, ∃ before ∈ memory.tracked,
      entry.1 = before.1 ∧ entry.2.contract = before.2.contract ∧
        entry.2.lastEmit = before.2.lastEmit ∧
        ∀ seen ∈ entry.2.watched, seen ∈ before.2.watched := by
    intro entry member
    obtain ⟨mapped, -⟩ := List.mem_filter.mp member
    obtain ⟨before, beforeMember, rfl⟩ := List.mem_map.mp mapped
    exact ⟨before, beforeMember, rfl, rfl, rfl, fun _ seen => (List.mem_filter.mp seen).1⟩
  refine ⟨⟨fun entry member => ?_, fun entry member => ?_⟩, fun entry member => ?_,
    fun entry member => dateKept_self (List.mem_filter.mp member).1,
    fun _ member => (List.mem_filter.mp member).1⟩
  · obtain ⟨before, beforeMember, key, contract, -, watched⟩ := entries entry member
    obtain ⟨sameKey, itemSound⟩ := sound.tracked before beforeMember
    refine ⟨key.trans (sameKey.trans contract.symm), ?_, ?_, ?_⟩
    · rw [contract]
      exact itemSound.lower
    · rw [contract]
      exact itemSound.address
    · exact fun seen inside => itemSound.watched seen (watched seen inside)
  · exact sound.calendar entry (List.mem_filter.mp member).1
  · obtain ⟨before, beforeMember, -, contract, mark, -⟩ := entries entry member
    exact .inr ⟨before, beforeMember, contract.symm, mark.symm⟩

/-! ## Restoring -/

/-- What the service writes about opportunities and drops of its chain. -/
def EventSound (chainId : ChainId) (event : DiscoveryEvent) : Prop :=
  match event.data with
  | .opportunity data => data.chainId = chainId → data.Written
  | .calendarEntry data => data.chainId = chainId → data.Written
  | _ => True

theorem mem_keepLatest {chainId : ChainId} {latest : OrderedMap (Bool × String) DiscoveryEvent}
    {event : DiscoveryEvent} {entry : (Bool × String) × DiscoveryEvent}
    (member : entry ∈ keepLatest chainId latest event) :
    entry ∈ latest ∨ entry.2 = event ∧ restoredKey chainId event = some entry.1 := by
  unfold keepLatest at member
  have set : ∀ key, restoredKey chainId event = some key → entry ∈ latest.set key event →
      entry ∈ latest ∨ entry.2 = event ∧ restoredKey chainId event = some entry.1 := by
    intro key same inside
    rcases OrderedMap.mem_set inside with rfl | before
    · exact .inr ⟨rfl, same⟩
    · exact .inl before
  split at member
  · exact .inl member
  · rename_i key same
    split at member
    · split at member
      · exact set key same member
      · exact .inl member
    · exact set key same member

theorem mem_latestEvents {chainId : ChainId} {events : List DiscoveryEvent}
    {entry : (Bool × String) × DiscoveryEvent} (member : entry ∈ latestEvents chainId events) :
    entry.2 ∈ events ∧ restoredKey chainId entry.2 = some entry.1 := by
  have general : ∀ (rest : List DiscoveryEvent)
      (latest : OrderedMap (Bool × String) DiscoveryEvent),
      (∀ event ∈ rest, event ∈ events) →
      (∀ entry ∈ latest, entry.2 ∈ events ∧ restoredKey chainId entry.2 = some entry.1) →
      ∀ entry ∈ rest.foldl (keepLatest chainId) latest,
        entry.2 ∈ events ∧ restoredKey chainId entry.2 = some entry.1 := by
    intro rest
    induction rest with
    | nil => exact fun _ _ known => known
    | cons event rest inductionHypothesis =>
        intro latest inside known
        refine inductionHypothesis _ (fun other member => inside other (List.mem_cons_of_mem _ member))
          fun entry member => ?_
        rcases mem_keepLatest member with before | ⟨same, key⟩
        · exact known entry before
        · rw [same]
          exact ⟨inside event List.mem_cons_self, key⟩
  exact general events [] (fun _ => id) (fun _ none => nomatch none) entry member

theorem dated_of_dropFromEvent {data : CalendarData} {contract : String} {drop : DropSnapshot}
    (starts : ∀ start ∈ data.openingAt, 0 ≤ start) (ends : ∀ close ∈ data.closingAt, 0 ≤ close)
    (read : dropFromEvent data contract = some drop) : drop.Dated := by
  unfold dropFromEvent at read
  split at read
  · cases read
  · rename_i start opens
    split at read
    · cases read
    · cases read
      refine ⟨Int.ediv_nonneg (starts start opens) (by decide), Int.ediv_nonneg ?_ (by decide)⟩
      cases closes : data.closingAt with
      | none => exact le_rfl
      | some close => exact ends close closes

theorem restoredItem_watched (contract : String) (at_ : Time) (data : OpportunityData) :
    ∀ seen ∈ (restoredItem contract at_ data).watched,
      ∃ address ∈ data.watchedMinters, seen.1 = toLowerCase address := by
  have general : ∀ (addresses : List String) (watched : OrderedMap String Time)
      (value : Time), (∀ address ∈ addresses, address ∈ data.watchedMinters) →
      (∀ seen ∈ watched, ∃ address ∈ data.watchedMinters, seen.1 = toLowerCase address) →
      ∀ seen ∈ addresses.foldl
        (fun watched address => OrderedMap.set watched (toLowerCase address) value) watched,
        ∃ address ∈ data.watchedMinters, seen.1 = toLowerCase address := by
    intro addresses
    induction addresses with
    | nil => exact fun _ _ _ known => known
    | cons address rest inductionHypothesis =>
        intro watched value inside known
        refine inductionHypothesis _ value
          (fun other member => inside other (List.mem_cons_of_mem _ member)) fun seen member => ?_
        rcases OrderedMap.mem_set member with rfl | before
        · exact ⟨address, inside address List.mem_cons_self, rfl⟩
        · exact known seen before
  exact general data.watchedMinters [] _ (fun _ => id) fun _ none => nomatch none

/-- An item or an entry that came from an event is set over the old ones. -/
structure RestoredFrom (chainId : ChainId) (now : Time) (event : DiscoveryEvent)
    (old new : DiscoveryMemory) : Prop where
  sound : new.Sound
  tracked : ∀ entry ∈ new.tracked, entry ∈ old.tracked ∨ ∃ data,
    event.data = .opportunity data ∧
      entry = (toLowerCase data.contract, restoredItem (toLowerCase data.contract) event.at_ data)
  calendar : ∀ entry ∈ new.calendar, entry ∈ old.calendar ∨ ∃ data drop,
    event.data = .calendarEntry data ∧ dropFromEvent data (toLowerCase data.contract) = some drop ∧
      entry = (toLowerCase data.contract,
        { drop := drop
          lastEmit := some { at_ := event.at_, signature := dropSignature drop } })
  identities : ∀ identity ∈ new.priceAlertIdentities, identity ∈ old.priceAlertIdentities

theorem RestoredFrom.refl {chainId : ChainId} {now : Time} {event : DiscoveryEvent}
    (sound : memory.Sound) : RestoredFrom chainId now event memory memory where
  sound := sound
  tracked := fun _ => .inl
  calendar := fun _ => .inl
  identities := fun _ => id

theorem restoreEvent_from {chainId : ChainId} {event : DiscoveryEvent}
    (written : EventSound chainId event) {key : Bool × String}
    (own : restoredKey chainId event = some key) (sound : memory.Sound) (now : Time) :
    RestoredFrom chainId now event memory (restoreEvent now memory event) := by
  unfold restoreEvent
  split
  · rename_i data isCalendar
    have chain : data.chainId = chainId := by
      by_contra other
      simp [restoredKey, isCalendar, other] at own
    simp only [EventSound, isCalendar] at written
    obtain ⟨-, starts, ends⟩ := written chain
    dsimp only
    split
    · split
      · rename_i drop read
        split
        · have dated := dated_of_dropFromEvent starts ends read
          have entries : ∀ entry ∈ memory.calendar.set (toLowerCase data.contract)
              { drop := drop
                lastEmit := some { at_ := event.at_, signature := dropSignature drop } },
              (toLowerCase entry.1 = entry.1 ∧ entry.2.drop.Dated) ∧
                (entry ∈ memory.calendar ∨ ∃ data drop, event.data = .calendarEntry data ∧
                  dropFromEvent data (toLowerCase data.contract) = some drop ∧
                  entry = (toLowerCase data.contract,
                    { drop := drop
                      lastEmit := some { at_ := event.at_, signature := dropSignature drop } })) := by
            intro entry member
            rcases OrderedMap.mem_set member with rfl | before
            · exact ⟨⟨toLowerCase_toLowerCase _, dated⟩, .inr ⟨data, drop, isCalendar, read, rfl⟩⟩
            · exact ⟨sound.calendar entry before, .inl before⟩
          unfold putCalendar
          dsimp only [Option.or]
          split
          · split
            · exact ⟨⟨sound.tracked, fun entry member => (entries entry member).1⟩,
                fun _ => .inl, fun entry member => (entries entry member).2, fun _ => id⟩
            · exact ⟨⟨sound.tracked,
                  fun entry member => (entries entry (OrderedMap.mem_delete member)).1⟩,
                fun _ => .inl, fun entry member => (entries entry (OrderedMap.mem_delete member)).2,
                fun _ => OrderedMap.mem_delete⟩
          · exact ⟨⟨sound.tracked, fun entry member => (entries entry member).1⟩,
              fun _ => .inl, fun entry member => (entries entry member).2, fun _ => id⟩
        · exact .refl sound
      · exact .refl sound
    · exact .refl sound
  · rename_i data isOpportunity
    dsimp only
    split
    · rename_i address
      split
      · exact .refl sound
      · have itemSound :
            (restoredItem (toLowerCase data.contract) event.at_ data).Sound := by
          refine ⟨toLowerCase_toLowerCase _, address, fun seen member => ?_⟩
          obtain ⟨address, -, same⟩ := restoredItem_watched _ _ _ seen member
          rw [same]
          exact toLowerCase_toLowerCase _
        refine ⟨⟨fun entry member => ?_, sound.calendar⟩, fun entry member => ?_,
          fun _ => .inl, fun _ => id⟩
        · rcases OrderedMap.mem_set member with rfl | before
          · exact ⟨rfl, itemSound⟩
          · exact sound.tracked entry before
        · rcases OrderedMap.mem_set member with rfl | before
          · exact .inr ⟨data, isOpportunity, rfl⟩
          · exact .inl before
    · exact .refl sound
  · exact .refl sound

/-- What restoring from events preserves, one event at a time. -/
theorem restore_invariant {I : DiscoveryMemory → Prop} (options : DiscoveryOptions) (now : Time)
    {events : List DiscoveryEvent} (written : ∀ event ∈ events, EventSound options.chainId event)
    (sound : memory.Sound) (start : I memory)
    (preserved : ∀ old new event key, event ∈ events →
      restoredKey options.chainId event = some key →
      RestoredFrom options.chainId now event old new → I old → I new) :
    (memory.restore options now events).Sound ∧ I (memory.restore options now events) := by
  have general : ∀ (latest : List DiscoveryEvent) (memory : DiscoveryMemory),
      (∀ event ∈ latest, event ∈ events ∧ ∃ key, restoredKey options.chainId event = some key) →
      memory.Sound → I memory →
      (latest.foldl (restoreEvent now) memory).Sound ∧
        I (latest.foldl (restoreEvent now) memory) := by
    intro latest
    induction latest with
    | nil => exact fun _ _ sound holds => ⟨sound, holds⟩
    | cons event rest inductionHypothesis =>
        intro memory known sound holds
        obtain ⟨member, key, own⟩ := known event List.mem_cons_self
        have restored := restoreEvent_from (written event member) own sound now
        exact inductionHypothesis _ (fun other inside => known other (List.mem_cons_of_mem _ inside))
          restored.sound (preserved _ _ event key member own restored holds)
  refine general _ memory (fun event inside => ?_) sound start
  obtain ⟨entry, member, rfl⟩ := List.mem_map.mp inside
  obtain ⟨stored, own⟩ := mem_latestEvents member
  exact ⟨stored, _, own⟩

end DiscoveryMemory

end MintBot
