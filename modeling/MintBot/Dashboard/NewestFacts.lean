import Mathlib.Order.Defs.Unbundled
import MintBot.Dashboard.Views

/-!
# Each entry once, with the newest facts

Both views have one entry for each id, and their pages join to the whole list.  An opportunity shows
its newest event.  An entry of the calendar shows the first event of its id in the order of the
events, so that its facts are the newest ones only when the first event says what the last one does.
-/

namespace MintBot.Dashboard

open Json Listing

/-- An event is not behind another in the order of time and id. -/
def AtIdLe (host : Host) (left right : EventRecord) : Prop :=
  TextLe left.at_ right.at_ ∧
    (left.at_ = right.at_ → (host.localeCompare left.id right.id).isLE)

instance (host : Host) : DecidableRel (AtIdLe host) :=
  fun _ _ => inferInstanceAs (Decidable (_ ∧ _))

/-- An event is the last one with its key. -/
def IsLast (host : Host) (keyOf : EventRecord → Text) (events : List EventRecord)
    (event : EventRecord) : Prop :=
  event ∈ events ∧ ∀ other ∈ events, keyOf other = keyOf event → AtIdLe host other event

/-- Following the cursor of a view from a position ends with these items. -/
inductive Follows {α : Type} (view : ProjectionRequest → ProjectionResult α) (limit : Int) :
    Option Int → List α → Prop
  | last {cursor : Option Int} (ends : (view ⟨some limit, cursor⟩).nextCursor = none) :
      Follows view limit cursor (view ⟨some limit, cursor⟩).data
  | more {cursor : Option Int} {text : Text} {rest : List α}
      (goesOn : (view ⟨some limit, cursor⟩).nextCursor = some text)
      (others : Follows view limit (numberParam text 0) rest) :
      Follows view limit cursor ((view ⟨some limit, cursor⟩).data ++ rest)

/-- The pages of a view are the list without a limit. -/
def PagesJoin {α : Type} (view : ProjectionRequest → ProjectionResult α) : Prop :=
  ∀ limit ≥ 1, ∀ items, Follows view limit none items ↔ items = (view {}).data

/-- The events of the calendar, and of the opportunities, as the state has them. -/
def calendarHistory (state : BackendState) : List EventRecord :=
  state.events.filter fun event => event.type ∈ calendarTypes

def opportunityHistory (state : BackendState) : List EventRecord :=
  state.events.filter fun event => opportunityPrefix.isPrefixOf event.type

structure NewestFacts (context : ProjectionContext) : Prop where
  opportunityIds :
    ((projectOpportunities context {}).data.map OpportunityReadModel.id).Nodup ∧
      ∀ id, id ∈ (projectOpportunities context {}).data.map OpportunityReadModel.id ↔
        ∃ event ∈ opportunityHistory context.state, opportunityId event = id
  opportunityFacts : ∀ entry ∈ (projectOpportunities context {}).data, ∃ event,
    IsLast context.host opportunityId (opportunityHistory context.state) event ∧
      entry = opportunityFromEvent context event
  calendarIds : ∃ added, (projectCalendar context {}).data.Perm
      (context.state.campaigns.map (calendarFromCampaign context) ++ added) ∧
    (added.map CalendarEntry.id).Nodup ∧
    ∀ id, id ∈ added.map CalendarEntry.id ↔ id ∉ context.state.campaigns.map Campaign.id ∧
      ∃ event ∈ calendarHistory context.state, calendarId event = id
  calendarFacts : ∀ entry ∈ (projectCalendar context {}).data,
    entry.id ∉ context.state.campaigns.map Campaign.id → ∃ event,
      IsLast context.host calendarId (calendarHistory context.state) event ∧
        calendarId event = entry.id ∧ entry.facts = Dashboard.calendarFacts context event
  opportunityPages : PagesJoin (projectOpportunities context)
  calendarPages : PagesJoin (projectCalendar context)

/-- Of each calendar id that is no campaign's, the first event says what a last one does. -/
def FirstSaysLast (context : ProjectionContext) : Prop :=
  ∀ id ∉ context.state.campaigns.map Campaign.id,
    ∀ first ∈ (calendarEvents context).find? fun event => calendarId event = id,
      ∃ last, IsLast context.host calendarId (calendarHistory context.state) last ∧
        calendarId last = id ∧
          Dashboard.calendarFacts context first = Dashboard.calendarFacts context last

/-! ## Orders -/

section Orders

variable {host : Host} {first second third : EventRecord}

theorem localeCompare_self (text : Text) : host.localeCompare text text = .eq := by
  have same := host.swap_localeCompare text text
  cases compared : host.localeCompare text text
  · rw [compared] at same
    cases same
  · rfl
  · rw [compared] at same
    cases same

instance transCmp_localeCompare {α : Type} (text : α → Text) :
    Std.TransCmp fun left right => host.localeCompare (text left) (text right) where
  eq_swap := (host.swap_localeCompare _ _).symm
  isLE_trans := host.trans_localeCompare

instance : Std.TransCmp (eventOrder host) :=
  inferInstanceAs (Std.TransCmp (compareLex
    (fun left right => host.localeCompare (sortKey host (EventRecord.at_ left))
      (sortKey host right.at_))
    fun left right => host.localeCompare left.id right.id))

instance : Std.Total (EventLe host) where
  total left right := by
    have swapped : eventOrder host right left = (eventOrder host left right).swap :=
      Std.OrientedCmp.eq_swap
    unfold EventLe
    rw [swapped]
    cases eventOrder host left right <;> simp

instance : IsTrans EventRecord (EventLe host) where
  trans _ _ _ before behind := @Std.TransCmp.isLE_trans _ (eventOrder host) _ _ _ _ before behind

theorem pairwise_inOrder (events : List EventRecord) :
    (inOrder host events).Pairwise (EventLe host) :=
  List.pairwise_insertionSort _ _

theorem mem_inOrder {events : List EventRecord} {event : EventRecord} :
    event ∈ inOrder host events ↔ event ∈ events :=
  (List.perm_insertionSort _ _).mem_iff

theorem AtIdLe.refl (event : EventRecord) : AtIdLe host event event :=
  ⟨TextLe.refl _, fun _ => by rw [localeCompare_self]; rfl⟩

theorem AtIdLe.of_not_le (early : ¬ TextLe first.at_ second.at_) : AtIdLe host second first :=
  ⟨(TextLe.total _ _).resolve_left early, fun same => absurd (same ▸ TextLe.refl _) early⟩

/-- Behind an event that is not later, an ordered event is the last one. -/
theorem AtIdLe.trans_ordered (later : TextLe second.at_ third.at_)
    (ordered : EventLe host first third) (before : AtIdLe host first second) :
    AtIdLe host first third := by
  refine ⟨before.1.trans later, fun same => ?_⟩
  unfold EventLe eventOrder at ordered
  rwa [same, localeCompare_self, Ordering.eq_then] at ordered

end Orders

/-! ## Pages -/

section Pages

variable {α : Type} {view : ProjectionRequest → ProjectionResult α} {entries items : List α}
variable {limit : Int} {cursor : Option Int}

theorem numberParam_numberText {value : Nat} (safe : (value : Int) ≤ lastSafeInteger) :
    numberParam (numberText value) 0 = some (value : Int) := by
  have read : digitsValue (numberText value) = some value := by
    have digits : readDigits ((naturalDigits value).map digitUnit ++ []) = (naturalDigits value, []) :=
      readDigits_append _ (by simp [NoDigitHead])
    rw [List.append_nil] at digits
    simp [digitsValue, numberText, digits, naturalDigits_ne_nil]
  simp [numberParam, read, safe]

theorem pageCursor_some {value : Nat} (safe : (value : Int) ≤ lastSafeInteger) :
    pageCursor ⟨some limit, some value⟩ = value := by
  have inside : ¬ (lastSafeInteger < (value : Int) ∨ (value : Int) < 0) := by omega
  simp [pageCursor, inside]

/-- A view that shows pages of some entries. -/
structure Paged (view : ProjectionRequest → ProjectionResult α) (entries : List α) : Prop where
  data : ∀ request, (view request).data = (pageItems entries request).1
  next : ∀ request, (view request).nextCursor = (pageItems entries request).2
  short : (entries.length : Int) ≤ lastSafeInteger

theorem Paged.safe (paged : Paged view entries) {size position next : Nat}
    (goesOn : (page entries size position).2 = some next) : (next : Int) ≤ lastSafeInteger := by
  have inside := next_lt goesOn
  have short := paged.short
  omega

theorem Paged.reads (paged : Paged view entries) (follows : Follows view limit cursor items) :
    Reads entries (pageLimit ⟨some limit, none⟩ entries.length) (pageCursor ⟨some limit, cursor⟩)
      items := by
  induction follows with
  | @last cursor ends =>
      rw [paged.next, pageItems, Option.map_eq_none_iff] at ends
      rw [paged.data]
      exact .last ends
  | @more cursor text rest goesOn others inductionHypothesis =>
      rw [paged.next, pageItems, Option.map_eq_some_iff] at goesOn
      obtain ⟨next, isNext, rfl⟩ := goesOn
      have safe := paged.safe isNext
      rw [numberParam_numberText safe, pageCursor_some safe] at inductionHypothesis
      rw [paged.data]
      exact .more isNext inductionHypothesis

theorem Paged.follows (paged : Paged view entries) {position : Nat}
    (reads : Reads entries (pageLimit ⟨some limit, none⟩ entries.length) position items)
    (isPosition : pageCursor ⟨some limit, cursor⟩ = position) : Follows view limit cursor items := by
  induction reads generalizing cursor with
  | @last position ends =>
      subst isPosition
      have data := paged.data ⟨some limit, cursor⟩
      have next := paged.next ⟨some limit, cursor⟩
      rw [pageItems] at data next
      exact data ▸ Follows.last (next.trans (congrArg (Option.map numberText) ends))
  | @more position next rest goesOn others inductionHypothesis =>
      subst isPosition
      have data := paged.data ⟨some limit, cursor⟩
      have isNext := paged.next ⟨some limit, cursor⟩
      rw [pageItems] at data isNext
      have safe := paged.safe goesOn
      refine data ▸ Follows.more (isNext.trans (congrArg (Option.map numberText) goesOn)) ?_
      rw [numberParam_numberText safe]
      exact inductionHypothesis (pageCursor_some safe)

theorem Paged.whole (paged : Paged view entries) : (view {}).data = entries := by
  rw [paged.data]
  simp [pageItems, page, pageLimit, pageCursor]

theorem Paged.join (paged : Paged view entries) : PagesJoin view := by
  intro limit atLeastOne items
  have positive : entries ≠ [] → 0 < pageLimit ⟨some limit, none⟩ entries.length := by
    intro some
    have filled := List.length_pos_iff.mpr some
    unfold pageLimit
    dsimp only
    split_ifs <;> omega
  rw [paged.whole]
  constructor
  · intro follows
    exact (reads_iff positive).mp (paged.reads follows)
  · rintro rfl
    exact paged.follows ((reads_iff positive).mpr rfl) rfl

/-- An empty view has one empty page. -/
theorem pageItems_nil (request : ProjectionRequest) : pageItems ([] : List α) request = ([], none) := by
  simp [pageItems, page]

end Pages

/-! ## The opportunities -/

section Views

variable {context : ProjectionContext}

theorem mem_opportunityEvents {event : EventRecord} :
    event ∈ opportunityEvents context ↔ event ∈ opportunityHistory context.state :=
  mem_inOrder

variable (context) in
/-- Of each opportunity the last event is kept. -/
theorem kept_latest : Kept opportunityId (AtIdLe context.host) (opportunityEvents context)
    (latest (opportunityEvents context)) :=
  kept_lastPerKey (pairwise_inOrder _) AtIdLe.refl
    (fun _ _ later _ ordered before => before.trans_ordered later ordered)
    fun _ _ early => AtIdLe.of_not_le early

theorem mem_latest {entry : Text × EventRecord} (member : entry ∈ latest (opportunityEvents context)) :
    entry.2 ∈ opportunityEvents context ∧ opportunityId entry.2 = entry.1 :=
  (kept_latest context).own _ _ (OrderedMap.get_of_mem (kept_latest context).distinct member)

theorem map_id_opportunityEntries : (opportunityEntries context).map OpportunityReadModel.id =
    (latest (opportunityEvents context)).map Prod.fst := by
  rw [opportunityEntries, List.map_map]
  exact List.map_congr_left fun entry member => (mem_latest member).2

theorem mem_opportunityIds {id : Text} :
    id ∈ (opportunityEntries context).map OpportunityReadModel.id ↔
      ∃ event ∈ opportunityHistory context.state, opportunityId event = id := by
  rw [map_id_opportunityEntries]
  constructor
  · intro member
    obtain ⟨entry, inside, rfl⟩ := List.mem_map.mp member
    obtain ⟨known, isKey⟩ := mem_latest inside
    exact ⟨entry.2, mem_opportunityEvents.mp known, isKey⟩
  · rintro ⟨event, member, rfl⟩
    obtain ⟨kept, isKept⟩ := Option.isSome_iff_exists.mp
      ((kept_latest context).listed event (mem_opportunityEvents.mpr member))
    exact List.mem_map.mpr ⟨_, OrderedMap.mem_of_get isKept, rfl⟩

theorem isLast_of_mem_latest {entry : Text × EventRecord}
    (member : entry ∈ latest (opportunityEvents context)) :
    IsLast context.host opportunityId (opportunityHistory context.state) entry.2 := by
  obtain ⟨known, isKey⟩ := mem_latest member
  refine ⟨mem_opportunityEvents.mp known, fun other inHistory same => ?_⟩
  exact (kept_latest context).last _ _ (OrderedMap.get_of_mem (kept_latest context).distinct member) other
    (mem_opportunityEvents.mpr inHistory) (same.trans isKey)

theorem paged_opportunities : Paged (projectOpportunities context) (opportunityEntries context) := by
  have short : (opportunityEntries context).length ≤ context.state.events.length := by
    have distinct := (kept_latest context).distinct
    rw [← map_id_opportunityEntries] at distinct
    have few := length_le_of_keys distinct fun id member => mem_opportunityIds.mp member
    rw [List.length_map] at few
    exact few.trans (List.length_filter_le _ _)
  by_cases empty : opportunityEvents context = []
  · have noEntries : opportunityEntries context = [] := by
      rw [opportunityEntries, empty]
      rfl
    rw [noEntries]
    constructor
    · intro request
      rw [projectOpportunities, if_pos empty, pageItems_nil]
    · intro request
      rw [projectOpportunities, if_pos empty, pageItems_nil]
    · decide
  · constructor
    · intro request
      rw [projectOpportunities, if_neg empty]
    · intro request
      rw [projectOpportunities, if_neg empty]
    · have bound := context.state.events_length
      unfold lastSafeInteger
      omega

/-! ## The calendar -/

theorem mem_calendarEvents {event : EventRecord} :
    event ∈ calendarEvents context ↔ event ∈ calendarHistory context.state :=
  mem_inOrder

theorem map_id_campaigns : (context.state.campaigns.map (calendarFromCampaign context)).map
    CalendarEntry.id = context.state.campaigns.map Campaign.id := by
  rw [List.map_map]
  rfl

variable (context) in
/-- The campaigns, and the first event of each other calendar id. -/
theorem exists_listed : ∃ added, listedEntries context =
    context.state.campaigns.map (calendarFromCampaign context) ++ added ∧
      Added calendarId CalendarEntry.id (calendarFromEvent context)
        (context.state.campaigns.map (calendarFromCampaign context)) (calendarEvents context)
        added :=
  exists_added fun _ => rfl

theorem calendarEntries_perm : (calendarEntries context).Perm (listedEntries context) :=
  List.perm_insertionSort _ _

theorem calendarIds_of_added {added : List CalendarEntry}
    (spec : Added calendarId CalendarEntry.id (calendarFromEvent context)
      (context.state.campaigns.map (calendarFromCampaign context)) (calendarEvents context) added)
    (id : Text) : id ∈ added.map CalendarEntry.id ↔
      id ∉ context.state.campaigns.map Campaign.id ∧
        ∃ event ∈ calendarHistory context.state, calendarId event = id := by
  rw [spec.listed_iff, map_id_campaigns]
  simp only [mem_calendarEvents]

theorem paged_calendar : Paged (projectCalendar context) (calendarEntries context) := by
  obtain ⟨added, listed, spec⟩ := exists_listed context
  have short : (calendarEntries context).length ≤
      context.state.campaigns.length + context.state.events.length := by
    have few := length_le_of_keys spec.distinct fun id member =>
      ((calendarIds_of_added spec id).mp member).2
    rw [List.length_map] at few
    rw [calendarEntries_perm.length_eq, listed, List.length_append, List.length_map]
    exact Nat.add_le_add_left (few.trans (List.length_filter_le _ _)) _
  by_cases empty : context.state.campaigns = [] ∧ calendarEvents context = []
  · have noEntries : calendarEntries context = [] := by
      rw [calendarEntries, listedEntries, empty.1, empty.2]
      rfl
    rw [noEntries]
    constructor
    · intro request
      rw [projectCalendar, if_pos empty, pageItems_nil]
    · intro request
      rw [projectCalendar, if_pos empty, pageItems_nil]
    · decide
  · constructor
    · intro request
      rw [projectCalendar, if_neg empty]
    · intro request
      rw [projectCalendar, if_neg empty]
    · have bound := context.state.events_length
      have bound' := context.state.campaigns_length
      unfold lastSafeInteger
      omega

/-- An entry that is no campaign's shows the first event of its id. -/
theorem calendarEntry_first {entry : CalendarEntry} (member : entry ∈ calendarEntries context)
    (noCampaign : entry.id ∉ context.state.campaigns.map Campaign.id) :
    ∃ first, (calendarEvents context).find? (fun event => calendarId event = entry.id) =
      some first ∧ entry = calendarFromEvent context first := by
  obtain ⟨added, listed, spec⟩ := exists_listed context
  rw [calendarEntries_perm.mem_iff, listed, List.mem_append] at member
  rcases member with isCampaign | isAdded
  · obtain ⟨campaign, inState, rfl⟩ := List.mem_map.mp isCampaign
    exact absurd (List.mem_map.mpr ⟨campaign, inState, rfl⟩) noCampaign
  · exact spec.first entry isAdded

/-- Each first event of an id that is no campaign's is shown. -/
theorem first_shown {id : Text} {first : EventRecord}
    (noCampaign : id ∉ context.state.campaigns.map Campaign.id)
    (isFirst : (calendarEvents context).find? (fun event => calendarId event = id) = some first) :
    calendarFromEvent context first ∈ calendarEntries context := by
  obtain ⟨added, listed, spec⟩ := exists_listed context
  have isId : calendarId first = id := by simpa using List.find?_some isFirst
  have known : id ∈ added.map CalendarEntry.id := (calendarIds_of_added spec id).mpr
    ⟨noCampaign, first, mem_calendarEvents.mp (List.mem_of_find?_eq_some isFirst), isId⟩
  obtain ⟨entry, isAdded, sameId⟩ := List.mem_map.mp known
  obtain ⟨other, isOther, rfl⟩ := spec.first entry isAdded
  rw [sameId, isFirst, Option.some.injEq] at isOther
  rw [calendarEntries_perm.mem_iff, listed, isOther]
  exact List.mem_append_right _ isAdded

theorem firstSaysLast_of_newestFacts (newest : NewestFacts context) : FirstSaysLast context := by
  intro id noCampaign first isFirst
  have shown := first_shown noCampaign (Option.mem_def.mp isFirst)
  have isId : calendarId first = id := by simpa using List.find?_some isFirst
  obtain ⟨last, isLast, sameId, sameFacts⟩ :=
    newest.calendarFacts _ (paged_calendar.whole ▸ shown) (by rwa [calendarFromEvent, isId])
  exact ⟨last, isLast, sameId.trans isId, sameFacts⟩

theorem newestFacts_of_firstSaysLast (saysLast : FirstSaysLast context) : NewestFacts context where
  opportunityIds := by
    rw [paged_opportunities.whole]
    exact ⟨map_id_opportunityEntries ▸ (kept_latest context).distinct, fun id => mem_opportunityIds⟩
  opportunityFacts := by
    rw [paged_opportunities.whole]
    intro entry member
    obtain ⟨kept, inside, rfl⟩ := List.mem_map.mp member
    exact ⟨kept.2, isLast_of_mem_latest inside, rfl⟩
  calendarIds := by
    obtain ⟨added, listed, spec⟩ := exists_listed context
    rw [paged_calendar.whole]
    exact ⟨added, listed ▸ calendarEntries_perm, spec.distinct, calendarIds_of_added spec⟩
  calendarFacts := by
    rw [paged_calendar.whole]
    intro entry member noCampaign
    obtain ⟨first, isFirst, rfl⟩ := calendarEntry_first member noCampaign
    obtain ⟨last, isLast, isId, sameFacts⟩ := saysLast _ noCampaign first isFirst
    exact ⟨last, isLast, isId, sameFacts⟩
  opportunityPages := paged_opportunities.join
  calendarPages := paged_calendar.join

/-- The views show every entry once, and the newest facts exactly when the first event of a calendar
id says what the last one does. -/
theorem newestFacts_iff (context : ProjectionContext) :
    NewestFacts context ↔ FirstSaysLast context :=
  ⟨firstSaysLast_of_newestFacts, newestFacts_of_firstSaysLast⟩

end Views

/-! ## A drop that has opened -/

def noon : Text :=
  ascii "2026-10-24T12:00:00.000Z"

def afternoon : Text :=
  ascii "2026-10-24T13:00:00.000Z"

def sampleHost : Host where
  localeCompare left right := compare (left.map UInt16.toNat) (right.map UInt16.toNat)
  swap_localeCompare _ _ := Std.OrientedCmp.eq_swap.symm
  trans_localeCompare := Std.TransCmp.isLE_trans
  dateParse text :=
    if text = noon then some 1792843200000
    else if text = afternoon then some 1792846800000 else none
  toISOString value := if value = 1792843200000 then noon else afternoon

/-- An observation of one drop. -/
def sampleEvent (id : String) (at_ : Text) (phase : String) : EventRecord where
  id := ascii id
  type := ascii "calendar_entry"
  at_ := at_
  data name :=
    if name = "id" then some (.text (ascii "calendar:1:0xabc"))
    else if name = "phase" then some (.text (ascii phase)) else none

def upcoming : EventRecord :=
  sampleEvent "evt_1" noon "upcoming"

def active : EventRecord :=
  sampleEvent "evt_2" afternoon "active"

/-- At noon the drop was seen as upcoming, an hour later as active. -/
def sampleContext : ProjectionContext where
  state :=
    { campaigns := []
      events := [upcoming, active]
      chainEvidence := [] }
  host := sampleHost
  now := 1792846800000

theorem calendarHistory_sample : calendarHistory sampleContext.state = [upcoming, active] := by
  have isUpcoming : upcoming.type ∈ calendarTypes := by decide +kernel
  have isActive : active.type ∈ calendarTypes := by decide +kernel
  rw [calendarHistory, sampleContext, List.filter_cons, List.filter_cons, if_pos, if_pos,
    List.filter_nil]
  · exact decide_eq_true isActive
  · exact decide_eq_true isUpcoming

theorem calendarEvents_sample : calendarEvents sampleContext = [upcoming, active] := by
  have ordered : EventLe sampleHost upcoming active := by decide +kernel
  rw [calendarEvents, ← calendarHistory, calendarHistory_sample]
  exact (List.pairwise_pair.mpr ordered).insertionSort_eq

/-- The calendar still shows the drop as upcoming. -/
theorem sampleContext_stale : ¬ NewestFacts sampleContext := by
  intro newest
  have sameId : calendarId upcoming = calendarId active := by decide +kernel
  have isFirst : (calendarEvents sampleContext).find? (fun event =>
      calendarId event = calendarId active) = some upcoming := by
    rw [calendarEvents_sample]
    exact List.find?_cons_of_pos (decide_eq_true sameId)
  obtain ⟨last, ⟨member, isLast⟩, isId, sameFacts⟩ :=
    firstSaysLast_of_newestFacts newest (calendarId active) List.not_mem_nil upcoming isFirst
  rw [calendarHistory_sample] at member isLast
  rcases List.mem_cons.mp member with rfl | isSecond
  · have early : ¬ AtIdLe sampleHost active upcoming := by decide +kernel
    exact early (isLast active (List.mem_cons_of_mem _ (List.mem_singleton_self _)) isId.symm)
  · obtain rfl := List.mem_singleton.mp isSecond
    have otherPhase : stringValue (upcoming.data "phase") ≠ stringValue (active.data "phase") := by
      decide +kernel
    exact otherPhase (congrArg CalendarFacts.phase sameFacts)

end MintBot.Dashboard
