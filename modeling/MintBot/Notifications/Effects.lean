import Mathlib.Data.List.Find
import MintBot.Notifications.Rows

/-!
# What a transaction does to the outbox

A transaction of a call touches the row of its event only.  The outbox that it leaves is the one
it computed, as far as the rows hold it.
-/

namespace MintBot.Notifications

open Fallible Machine

/-- Every row is one that the dispatchers left, under a key of its own. -/
structure World.Sound (world : World) : Prop where
  proper : ∀ row ∈ world.rows, row.Proper
  distinct : (world.rows.map NotificationRow.id).Nodup

/-! ## Persisting -/

/-- A fold of steps that change nothing. -/
theorem foldlM_quiet {α σ : Type} {next : σ → α → Except Error σ} {items : List α} {state : σ}
    (quiet : ∀ item ∈ items, next state item = .ok state) :
    items.foldlM next state = .ok state := by
  induction items with
  | nil => rfl
  | cons item rest inductionHypothesis =>
      rw [List.foldlM_cons, quiet item List.mem_cons_self, ok_bind]
      exact inductionHypothesis fun item member => quiet item (List.mem_cons_of_mem _ member)

theorem sameDelivery_refl (record : NotificationOutboxRecord) : SameDelivery record record :=
  ⟨rfl, rfl, rfl, rfl, rfl, rfl, rfl⟩

/-- A record that is as it was is not written. -/
theorem persistNotification_same {record prior : NotificationOutboxRecord}
    (same : SameDelivery prior record) (rows : List NotificationRow) :
    persistNotification record (some prior) rows = .ok rows :=
  if_pos same

theorem map_id_readNotifications (rows : List NotificationRow) :
    (readNotifications rows).map NotificationOutboxRecord.id = rows.map NotificationRow.id := by
  rw [readNotifications, List.map_map]
  rfl

variable {rows : List NotificationRow}

theorem lookup_read (distinct : (rows.map NotificationRow.id).Nodup) {row : NotificationRow}
    (member : row ∈ rows) :
    Table.lookup NotificationOutboxRecord.id row.id (readNotifications rows) =
      some (readNotification row) := by
  have ids : ((readNotifications rows).map NotificationOutboxRecord.id).Nodup := by
    rwa [map_id_readNotifications]
  exact Table.lookup_of_mem ids (List.mem_map_of_mem member)

/-- The step of the fold for a record that was not touched. -/
theorem persist_untouched (distinct : (rows.map NotificationRow.id).Nodup)
    {record : NotificationOutboxRecord} (member : record ∈ readNotifications rows)
    (state : List NotificationRow) :
    persistNotification record
      (Table.lookup NotificationOutboxRecord.id record.id (readNotifications rows)) state =
        .ok state := by
  obtain ⟨row, known, rfl⟩ := List.mem_map.mp member
  rw [show (readNotification row).id = row.id from rfl, lookup_read distinct known]
  exact persistNotification_same (sameDelivery_refl _) _

/-- The end of a transaction that keeps the rows of all that it read. -/
theorem persist_keys {next : List NotificationOutboxRecord} {written : List NotificationRow}
    (keeps : ∀ row ∈ rows, row.id ∈ next.map NotificationOutboxRecord.id)
    (folded : next.foldlM (fun rows' record => persistNotification record
      (Table.lookup NotificationOutboxRecord.id record.id (readNotifications rows)) rows') rows =
        .ok written) :
    persistOutbox next rows = .ok written := by
  unfold persistOutbox
  dsimp only
  rw [folded, ok_bind]
  congr 1
  refine List.filter_eq_self.mpr fun row _ => ?_
  rw [decide_eq_true_eq]
  rintro ⟨before, gone⟩
  rw [map_id_readNotifications] at before
  obtain ⟨old, member, same⟩ := List.mem_map.mp before
  exact gone (same ▸ keeps old member)

/-- The records before and after the one that is rewritten are as they were. -/
theorem rewrite_split {first last : List NotificationRow} {row : NotificationRow}
    (distinct : ((first ++ row :: last).map NotificationRow.id).Nodup)
    {item : NotificationOutboxRecord} (named : item.id = row.id)
    (change : NotificationOutboxRecord → NotificationOutboxRecord) :
    rewrite item (readNotifications (first ++ row :: last)) change =
      readNotifications first ++ change (readNotification row) :: readNotifications last := by
  rw [List.map_append, List.map_cons, List.nodup_append] at distinct
  obtain ⟨-, lastDistinct, apart⟩ := distinct
  have absentFirst : ∀ record ∈ readNotifications first, record.id ≠ item.id := by
    intro record known same
    obtain ⟨old, member, rfl⟩ := List.mem_map.mp known
    exact apart old.id (List.mem_map_of_mem member) row.id List.mem_cons_self (same.trans named)
  have absentLast : ∀ record ∈ readNotifications last, record.id ≠ item.id := by
    intro record known same
    obtain ⟨old, member, rfl⟩ := List.mem_map.mp known
    exact (List.nodup_cons.mp lastDistinct).1
      (List.mem_map.mpr ⟨old, member, same.trans named⟩)
  have unchangedFirst := Table.update_of_absent absentFirst change
  have unchangedLast := Table.update_of_absent absentLast change
  unfold rewrite
  unfold Table.update at unchangedFirst unchangedLast ⊢
  rw [readNotifications, List.map_append, List.map_cons, List.map_append, List.map_cons,
    if_pos (show (readNotification row).id = item.id from named.symm)]
  exact congrArg₂ (fun before after => before ++ change (readNotification row) :: after)
    unchangedFirst unchangedLast

/-- One record is rewritten. -/
theorem persist_rewrite (distinct : (rows.map NotificationRow.id).Nodup) {row : NotificationRow}
    (member : row ∈ rows) {item : NotificationOutboxRecord} (named : item.id = row.id)
    {change : NotificationOutboxRecord → NotificationOutboxRecord}
    (keepsId : ∀ record, (change record).id = record.id) :
    persistOutbox (rewrite item (readNotifications rows) change) rows =
      if SameDelivery (readNotification row) (change (readNotification row)) then .ok rows
      else do
        let written ← updateNotification (change (readNotification row)) row
        return Table.update NotificationRow.id row.id (fun _ => written) rows := by
  have ids : (rewrite item (readNotifications rows) change).map NotificationOutboxRecord.id =
      rows.map NotificationRow.id := by
    rw [rewrite, Table.map_key_update _ _ _ fun record _ => keepsId record,
      map_id_readNotifications]
  have found : Table.lookup NotificationOutboxRecord.id (change (readNotification row)).id
      (readNotifications rows) = some (readNotification row) := by
    rw [keepsId]
    exact lookup_read distinct member
  have foundRow := Table.lookup_of_mem distinct member
  obtain ⟨first, last, split⟩ := List.append_of_mem member
  have folded : (rewrite item (readNotifications rows) change).foldlM (fun rows' record =>
      persistNotification record
        (Table.lookup NotificationOutboxRecord.id record.id (readNotifications rows)) rows') rows =
      persistNotification (change (readNotification row)) (some (readNotification row)) rows := by
    have untouchedFirst : ∀ record ∈ readNotifications first, record ∈ readNotifications rows := by
      intro record known
      rw [split, readNotifications, List.map_append]
      exact List.mem_append_left _ known
    have untouchedLast : ∀ record ∈ readNotifications last, record ∈ readNotifications rows := by
      intro record known
      rw [split, readNotifications, List.map_append]
      exact List.mem_append_right _ (List.mem_cons_of_mem _ known)
    have parts : rewrite item (readNotifications rows) change =
        readNotifications first ++ change (readNotification row) :: readNotifications last := by
      rw [split] at distinct ⊢
      exact rewrite_split distinct named change
    rw [parts, List.foldlM_append,
      foldlM_quiet fun record known => persist_untouched distinct (untouchedFirst record known) _,
      ok_bind, List.foldlM_cons, found]
    cases persistNotification (change (readNotification row)) (some (readNotification row))
      rows with
    | error failure => rfl
    | ok written =>
        rw [ok_bind]
        exact foldlM_quiet fun record known =>
          persist_untouched distinct (untouchedLast record known) _
  rw [persistNotification, keepsId, show (readNotification row).id = row.id from rfl, foundRow,
    require, ok_bind] at folded
  have keeps : ∀ old ∈ rows, old.id ∈
      (rewrite item (readNotifications rows) change).map NotificationOutboxRecord.id := by
    intro old known
    rw [ids]
    exact List.mem_map_of_mem known
  by_cases same : SameDelivery (readNotification row) (change (readNotification row))
  · rw [if_pos same] at folded ⊢
    exact persist_keys keeps folded
  · rw [if_neg same] at folded ⊢
    cases updated : updateNotification (change (readNotification row)) row with
    | error failure =>
        rw [updated] at folded
        unfold persistOutbox
        dsimp only
        rw [folded]
        rfl
    | ok written =>
        rw [updated] at folded
        exact persist_keys keeps folded

/-- One record is added. -/
theorem persist_append (distinct : (rows.map NotificationRow.id).Nodup)
    {fresh : NotificationOutboxRecord} (new : fresh.id ∉ rows.map NotificationRow.id)
    {row : NotificationRow} (inserted : insertNotification fresh = .ok row) :
    persistOutbox (readNotifications rows ++ [fresh]) rows = .ok (rows ++ [row]) := by
  have absent :
      Table.lookup NotificationOutboxRecord.id fresh.id (readNotifications rows) = none := by
    refine Table.lookup_eq_none.mpr fun record known same => new ?_
    rw [← map_id_readNotifications, ← same]
    exact List.mem_map_of_mem known
  have absentRow : Table.lookup NotificationRow.id fresh.id rows = none := by
    refine Table.lookup_eq_none.mpr fun old known same => new ?_
    rw [← same]
    exact List.mem_map_of_mem known
  apply persist_keys
  · intro old known
    rw [List.map_append, map_id_readNotifications]
    exact List.mem_append_left _ (List.mem_map_of_mem known)
  · rw [List.foldlM_append, foldlM_quiet fun record known => persist_untouched distinct known _,
      ok_bind, List.foldlM_cons, absent]
    simp [persistNotification, absentRow, refuse, inserted, bind, Except.bind, pure, Except.pure]

/-- Records are dropped. -/
theorem persist_filter (distinct : (rows.map NotificationRow.id).Nodup)
    (kept : NotificationOutboxRecord → Bool) :
    persistOutbox ((readNotifications rows).filter kept) rows =
      .ok (rows.filter fun row => kept (readNotification row)) := by
  unfold persistOutbox
  dsimp only
  rw [foldlM_quiet fun record known =>
    persist_untouched distinct (List.mem_filter.mp known).1 _, ok_bind]
  congr 1
  refine List.filter_congr fun row member => ?_
  have before : row.id ∈ (readNotifications rows).map NotificationOutboxRecord.id := by
    rw [map_id_readNotifications]
    exact List.mem_map_of_mem member
  rw [Bool.eq_iff_iff, decide_eq_true_eq]
  constructor
  · intro stays
    have listed := not_not.mp fun gone => stays ⟨before, gone⟩
    obtain ⟨record, known, same⟩ := List.mem_map.mp listed
    obtain ⟨other, isKept⟩ := List.mem_filter.mp known
    obtain ⟨old, oldMember, rfl⟩ := List.mem_map.mp other
    rwa [← List.inj_on_of_nodup_map distinct oldMember member same]
  · rintro isKept ⟨-, gone⟩
    exact gone (List.mem_map.mpr
      ⟨readNotification row, List.mem_filter.mpr ⟨List.mem_map_of_mem member, isKept⟩, rfl⟩)

/-! ## The rows by their events -/

theorem notify_injective {first second : String} (same : "notify_" ++ first = "notify_" ++ second) :
    first = second := by
  rw [← String.toList_inj, String.toList_append, String.toList_append] at same
  exact String.toList_inj.mp (List.append_cancel_left same)

namespace World.Sound

variable {world : World} (sound : world.Sound)

include sound

theorem named {record : NotificationOutboxRecord} (member : record ∈ world.outbox) :
    record.id = "notify_" ++ record.sourceEventId := by
  obtain ⟨row, known, rfl⟩ := List.mem_map.mp member
  exact (sound.proper row known).named

/-- The record of a row that was found. -/
theorem row_spec {sourceEventId : String} {record : NotificationOutboxRecord}
    (found : world.row sourceEventId = some record) :
    ∃ row ∈ world.rows, row.Proper ∧ readNotification row = record ∧
      record.sourceEventId = sourceEventId ∧ record.id = "notify_" ++ sourceEventId := by
  obtain ⟨member, same⟩ := Table.lookup_eq_some found
  obtain ⟨row, known, rfl⟩ := List.mem_map.mp member
  exact ⟨row, known, sound.proper row known, rfl, same, same ▸ sound.named member⟩

/-- A record is found under its key as under its event. -/
theorem lookup_id {sourceEventId : String} :
    Table.lookup NotificationOutboxRecord.id ("notify_" ++ sourceEventId) world.outbox =
      world.row sourceEventId := by
  unfold row Table.lookup
  apply List.find?_congr
  intro record member
  rw [sound.named member]
  refine decide_eq_decide.mpr ⟨notify_injective, fun same => by rw [same]⟩

/-- A row is rewritten by its key as by its event. -/
theorem rewrite_eq_update {item : NotificationOutboxRecord} {sourceEventId : String}
    (named : item.id = "notify_" ++ sourceEventId)
    (change : NotificationOutboxRecord → NotificationOutboxRecord) :
    rewrite item world.outbox change =
      Table.update NotificationOutboxRecord.sourceEventId sourceEventId change world.outbox := by
  refine List.map_congr_left fun record member => ?_
  rw [named, sound.named member]
  by_cases same : record.sourceEventId = sourceEventId
  · rw [if_pos same, if_pos (by rw [same])]
  · rw [if_neg same, if_neg fun equal => same (notify_injective equal)]

end World.Sound

/-! ## What a transaction changes -/

/-- A transaction changes the row of one event, in a way, and nothing else but rows. -/
structure Touches (world world' : World) (sourceEventId : String)
    (change : Option NotificationOutboxRecord → Option NotificationOutboxRecord → Prop) : Prop where
  sound : world'.Sound
  frame : world' = { world with rows := world'.rows }
  others : ∀ other, other ≠ sourceEventId → world'.row other = world.row other
  own : change (world.row sourceEventId) (world'.row sourceEventId)

namespace World.Sound

variable {world : World} (sound : world.Sound)

include sound

/-- A transaction that leaves the outbox as it read it. -/
theorem commit_same : world.commit world.outbox = .ok world := by
  have written := persist_filter sound.distinct fun _ => true
  rw [List.filter_true, List.filter_true] at written
  rw [commit, outbox, written, ok_bind]
  rfl

/-- A transaction that changes the record of an event. -/
theorem commit_rewrite {sourceEventId : String} {record item : NotificationOutboxRecord}
    (found : world.row sourceEventId = some record) (named : item.id = record.id)
    (change : NotificationOutboxRecord → NotificationOutboxRecord)
    (keepsId : ∀ record, (change record).id = record.id)
    (keepsSource : ∀ record, (change record).sourceEventId = record.sourceEventId)
    (unchanged : SameDelivery record (change record) → change record = record)
    (writes : ∀ row, row.Proper → readNotification row = record → ∃ written,
      updateNotification (change record) row = .ok written ∧ written.Proper ∧
        written.id = row.id ∧ readNotification written = stored (change record)) :
    ∃ world', world.commit (rewrite item world.outbox change) = .ok world' ∧
      Touches world world' sourceEventId fun _ after => after = some (stored (change record)) := by
  obtain ⟨row, member, proper, rfl, source, id⟩ := sound.row_spec found
  have outcome := persist_rewrite sound.distinct member named keepsId
  by_cases same : SameDelivery (readNotification row) (change (readNotification row))
  · rw [if_pos same] at outcome
    refine ⟨world, ?_, sound, rfl, fun _ _ => rfl, ?_⟩
    · rw [commit, outbox, outcome, ok_bind]
      rfl
    · rw [found, unchanged same, NotificationRow.Proper.read_stored]
  · obtain ⟨written, updated, writtenProper, writtenId, read⟩ := writes row proper rfl
    rw [if_neg same, updated, ok_bind] at outcome
    let world' : World :=
      { world with rows := Table.update NotificationRow.id row.id (fun _ => written) world.rows }
    have readBack :
        world'.outbox = rewrite item world.outbox fun record => stored (change record) := by
      simp only [outbox, readNotifications, rewrite, Table.update, world', List.map_map]
      refine List.map_congr_left fun old known => ?_
      have key : (readNotification old).id = item.id ↔ old.id = row.id := by
        rw [named]
        rfl
      by_cases equal : old.id = row.id
      · obtain rfl := List.inj_on_of_nodup_map sound.distinct known member equal
        simp [read, named]
      · simp [equal, mt key.mp equal]
    rw [sound.rewrite_eq_update (named.trans id)] at readBack
    refine ⟨world', ?_, ⟨?_, ?_⟩, rfl, ?_, ?_⟩
    · rw [commit, outbox, outcome]
      rfl
    · intro other known
      rcases Table.mem_update.mp known with ⟨old, -⟩ | ⟨-, -, -, rfl⟩
      · exact sound.proper other old
      · exact writtenProper
    · have ids := Table.map_key_update NotificationRow.id row.id (fun _ => written)
        (fun old same => writtenId.trans same.symm) world.rows
      rw [show world'.rows = Table.update NotificationRow.id row.id (fun _ => written) world.rows
        from rfl, ids]
      exact sound.distinct
    · intro other differ
      rw [World.row, readBack, Table.lookup_update_other _ differ
        (fun record => stored (change record)) keepsSource]
      rfl
    · have own := Table.lookup_update_self NotificationOutboxRecord.sourceEventId sourceEventId
        (fun record => stored (change record)) keepsSource world.outbox
      rw [World.row, readBack, own]
      exact congrArg _ found

/-- A transaction that adds the record of an event. -/
theorem commit_append {sourceEventId : String} (fresh : NotificationOutboxRecord)
    (absent : world.row sourceEventId = none) (source : fresh.sourceEventId = sourceEventId)
    (named : fresh.id = "notify_" ++ fresh.sourceEventId) (instant : fresh.deliveredAt = none)
    (waits : fresh.state = .pending ∨ fresh.state = .delivering)
    (quiet : truthy fresh.lastError = none) :
    ∃ world', world.commit (world.outbox ++ [fresh]) = .ok world' ∧
      Touches world world' sourceEventId fun _ after => after = some (stored fresh) := by
  have new : fresh.id ∉ world.rows.map NotificationRow.id := by
    intro listed
    rw [← map_id_readNotifications] at listed
    obtain ⟨record, known, same⟩ := List.mem_map.mp listed
    refine Table.lookup_eq_none.mp absent record known ?_
    rw [← source]
    refine notify_injective ?_
    rw [← sound.named known, same, named]
  obtain ⟨row, inserted, proper, rowId, read⟩ := insert_waiting fresh waits named instant quiet
  let world' : World := { world with rows := world.rows ++ [row] }
  have readBack : world'.outbox = world.outbox ++ [stored fresh] := by
    unfold outbox readNotifications
    rw [List.map_append, List.map_singleton, read]
  refine ⟨world', ?_, ⟨?_, ?_⟩, rfl, ?_, ?_⟩
  · rw [commit, outbox, persist_append sound.distinct new inserted]
    rfl
  · intro other known
    rcases List.mem_append.mp known with old | last
    · exact sound.proper other old
    · rwa [List.mem_singleton.mp last]
  · rw [show world'.rows = world.rows ++ [row] from rfl, List.map_append, List.map_singleton, rowId]
    exact List.nodup_append.mpr ⟨sound.distinct, List.nodup_singleton _, fun id known other last =>
      by rw [List.mem_singleton.mp last]; rintro rfl; exact new known⟩
  · intro other differ
    rw [World.row, readBack]
    cases found : Table.lookup NotificationOutboxRecord.sourceEventId other world.outbox with
    | some record =>
        rw [Table.lookup_append_of_some found]
        exact found.symm
    | none =>
        rw [Table.lookup_append_of_none found]
        refine Eq.trans (Table.lookup_eq_none.mpr fun record last => ?_) found.symm
        rw [List.mem_singleton.mp last]
        exact fun same => differ (same.symm.trans source)
  · rw [World.row, readBack, Table.lookup_append_of_none absent]
    simp [Table.lookup, stored, source]

end World.Sound

end MintBot.Notifications
