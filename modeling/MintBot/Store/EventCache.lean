import Mathlib.Data.List.Sort
import Mathlib.Data.Prod.Lex
import MintBot.Library.AppendLog
import MintBot.Library.Machine
import MintBot.Library.Table

/-!
# The event cache

The audit table grows by one row at a time, and most of its rows are events.
The store keeps the events it has read, the row number it has read up to and the
last row it saw, and reads only the rows behind it.  Row numbers are handed out
again after a rollback, so a read first looks whether the last row it saw is
still there.  Ids and instants are texts of which only the order matters.
-/

namespace MintBot

open Machine AppendLog

universe u v

/-- The decoded `policy_snapshot_json` of an audit row. -/
structure PolicySnapshot (V : Type v) where
  kind : Option String
  eventType : Option String
  eventData : Option (List (String × V))
  runId : Option String
  deriving DecidableEq, Repr

/-- A row of `audit_event`. -/
structure AuditRow (T : Type u) (V : Type v) where
  rid : Nat
  id : T
  entityType : String
  entityId : String
  newState : Option String
  reason : String
  snapshot : Option (PolicySnapshot V)
  occurredAt : T
  deriving DecidableEq, Repr

/-- An event of the backend state, with its data. -/
structure StoredEvent (T : Type u) (V : Type v) where
  id : T
  runId : Option String
  type : String
  instant : T
  data : List (String × V)
  deriving DecidableEq, Repr

/-- The last audit row that the cache saw. -/
structure CacheTail (T : Type u) where
  rid : Nat
  id : T
  instant : T
  deriving DecidableEq, Repr

/-- `eventCache`, `eventCacheRowid` and `eventCacheTail`. -/
structure EventCache (T : Type u) (V : Type v) where
  events : List (StoredEvent T V)
  rowid : Nat
  tail : Option (CacheTail T)
  deriving DecidableEq, Repr

namespace EventCache

variable {T : Type u} {V : Type v}

/-- The cache of a store that has read nothing. -/
def empty : EventCache T V where
  events := []
  rowid := 0
  tail := none

end EventCache

section Reading

variable {T : Type u} {V : Type v}

/-- The event of an audit row, unless the row is about something else. -/
def AuditRow.event (row : AuditRow T V) : Option (StoredEvent T V) :=
  let kind := row.snapshot.bind PolicySnapshot.kind
  let runId := row.snapshot.bind PolicySnapshot.runId
  if kind ≠ some "event" ∧ row.entityType ≠ "execution_run" then none
  else
    some
      { id := row.id
        runId :=
          if runId.getD "" ≠ "" ∨ row.entityType = "execution_run"
          then some (runId.getD row.entityId) else none
        type := (row.snapshot.bind PolicySnapshot.eventType).getD
          (row.newState.getD row.reason)
        instant := row.occurredAt
        data := (row.snapshot.bind PolicySnapshot.eventData).getD [] }

theorem AuditRow.event_id {row : AuditRow T V} {event : StoredEvent T V}
    (read : row.event = some event) : event.id = row.id := by
  unfold AuditRow.event at read
  dsimp only at read
  split at read
  · cases read
  · exact Option.some.inj read ▸ rfl

variable [LinearOrder T]

/-- `compare`: events are ordered by instant, then by id. -/
def compareEvents (left right : StoredEvent T V) : Ordering :=
  if left.instant < right.instant then .lt
  else if right.instant < left.instant then .gt
  else if left.id < right.id then .lt
  else if right.id < left.id then .gt
  else .eq

/-- The left event does not belong behind the right one. -/
def StoredEvent.Ordered (left right : StoredEvent T V) : Prop :=
  compareEvents left right ≠ .gt

instance (left right : StoredEvent T V) : Decidable (left.Ordered right) := by
  unfold StoredEvent.Ordered
  infer_instance

/-- Forget everything unless the last row seen is still the same row. -/
def checkTail (cache : EventCache T V) (visible : List (AuditRow T V)) : EventCache T V :=
  match cache.tail with
  | none => cache
  | some tail =>
      match visible.find? fun row => row.rid = tail.rid with
      | none => .empty
      | some row => if row.id ≠ tail.id ∨ row.occurredAt ≠ tail.instant then .empty else cache

/-- Move the row number and the tail of the cache to a row. -/
def EventCache.advance (cache : EventCache T V) (row : AuditRow T V) : EventCache T V :=
  { cache with
    rowid := max cache.rowid row.rid
    tail := some { rid := row.rid, id := row.id, instant := row.occurredAt } }

/-- Put a sorted batch behind the cached events, or merge the two. -/
def mergeBatch (events batch : List (StoredEvent T V)) : List (StoredEvent T V) :=
  match batch.head?, events.getLast? with
  | none, _ => events
  | some _, none => events ++ batch
  | some first, some last =>
      if last.Ordered first then events ++ batch
      else events.merge batch fun left right => left.Ordered right

/-- `readEvents` over the visible rows of the table, which are in the order of
their row numbers: the cache afterwards and the events returned. -/
def readEvents (cache : EventCache T V) (visible : List (AuditRow T V)) :
    EventCache T V × List (StoredEvent T V) :=
  let checked := checkTail cache visible
  let rows := visible.filter fun row => checked.rowid < row.rid
  let batch := (rows.filterMap AuditRow.event).insertionSort StoredEvent.Ordered
  let events := mergeBatch checked.events batch
  ({ rows.foldl EventCache.advance checked with events := events }, events)

/-- A read without a cache: the event rows, sorted. -/
def readAllEvents (visible : List (AuditRow T V)) : List (StoredEvent T V) :=
  (visible.filterMap AuditRow.event).insertionSort StoredEvent.Ordered

end Reading

/-! ## Transactions on the table -/

/-- Who holds the write lock: the connection of the store, or another one. -/
inductive Writer
  | store
  | other
  deriving DecidableEq, Repr

/-- The audit table, the rows of the open transaction, and the cache of the
store.  `used` lists every id that was ever inserted, also by transactions that
were rolled back. -/
structure AuditStore (T : Type u) (V : Type v) where
  committed : List (AuditRow T V)
  pending : Option (Writer × List (AuditRow T V))
  used : List T
  cache : EventCache T V
  deriving DecidableEq, Repr

inductive AuditCommand (T : Type u) (V : Type v)
  | begin (writer : Writer)
  /-- Insert a row; its row number is given by the table. -/
  | append (row : AuditRow T V)
  | commit
  | rollback
  /-- A call of `readEvents`. -/
  | read
  deriving DecidableEq, Repr

namespace AuditStore

variable {T : Type u} {V : Type v}

/-- The store before anything was written or read. -/
def initial : AuditStore T V where
  committed := []
  pending := none
  used := []
  cache := .empty

/-- The rows with those of the open transaction. -/
def table (state : AuditStore T V) : List (AuditRow T V) :=
  state.committed ++ (state.pending.map Prod.snd).getD []

/-- The rows that the connection of the store sees: its own uncommitted rows, and
never those of another connection. -/
def visible (state : AuditStore T V) : List (AuditRow T V) :=
  match state.pending with
  | some (.store, rows) => state.committed ++ rows
  | some (.other, _) | none => state.committed

theorem visible_prefix (state : AuditStore T V) : state.visible <+: state.table := by
  unfold visible table
  split
  · rename_i rows open'
    rw [open']
    exact List.prefix_refl _
  · exact List.prefix_append _ _
  · exact List.prefix_append _ _

/-- The row number after the greatest one. -/
def nextRowid (rows : List (AuditRow T V)) : Nat :=
  (rows.map AuditRow.rid).foldl max 0 + 1

variable [LinearOrder T]

def step (command : AuditCommand T V) (state : AuditStore T V) :
    Except String (AuditStore T V) :=
  match command, state.pending with
  | .begin writer, none => .ok { state with pending := some (writer, []) }
  | .begin _, some _ => .error "SQLITE_BUSY"
  | .append row, some (writer, rows) =>
      .ok { state with
        pending := some (writer, rows ++ [{ row with rid := nextRowid (state.committed ++ rows) }])
        used := row.id :: state.used }
  | .commit, some (_, rows) =>
      .ok { state with committed := state.committed ++ rows, pending := none }
  | .rollback, some _ => .ok { state with pending := none }
  | .append _, none | .commit, none | .rollback, none => .error "NO_TRANSACTION"
  | .read, _ => .ok { state with cache := (readEvents state.cache state.visible).1 }

/-- Ids are never used twice. -/
def FreshId (state : AuditStore T V) : AuditCommand T V → Prop
  | .append row => row.id ∉ state.used
  | _ => True

instance (state : AuditStore T V) (command : AuditCommand T V) :
    Decidable (state.FreshId command) := by
  unfold FreshId
  cases command <;> infer_instance

end AuditStore

/-! ## Row numbers -/

section Numbers

variable {T : Type u} {V : Type v}

/-- The rows are numbered from one, in order. -/
def Numbered (rows : List (AuditRow T V)) : Prop :=
  rows.map AuditRow.rid = List.range' 1 rows.length

theorem Numbered.nil : Numbered ([] : List (AuditRow T V)) :=
  rfl

theorem Numbered.take {front back : List (AuditRow T V)} (numbered : Numbered (front ++ back)) :
    Numbered front := by
  have whole : front.map AuditRow.rid ++ back.map AuditRow.rid =
      List.range' 1 front.length ++ List.range' (1 + front.length) back.length := by
    have same : (front ++ back).map AuditRow.rid = List.range' 1 (front ++ back).length := numbered
    rwa [List.map_append, List.length_append, ← List.range'_append_1] at same
  exact (List.append_inj whole (by simp)).1

theorem Numbered.of_prefix {shorter rows : List (AuditRow T V)} (numbered : Numbered rows)
    (start : shorter <+: rows) : Numbered shorter := by
  obtain ⟨back, rfl⟩ := start
  exact numbered.take

/-- The last of some numbered rows has their number. -/
theorem Numbered.rid_last {front : List (AuditRow T V)} {row : AuditRow T V}
    (numbered : Numbered (front ++ [row])) : row.rid = front.length + 1 := by
  have same : (front ++ [row]).map AuditRow.rid = List.range' 1 (front ++ [row]).length := numbered
  rw [List.map_append, List.length_append, ← List.range'_append_1] at same
  have last := (List.append_inj same (by simp)).2
  simpa [Nat.add_comm] using last

theorem foldl_max_range' (count : Nat) : (List.range' 1 count).foldl max 0 = count := by
  induction count with
  | zero => rfl
  | succ count inductionHypothesis =>
      rw [List.range'_concat, List.foldl_append, inductionHypothesis, List.foldl_cons,
        List.foldl_nil]
      omega

theorem Numbered.nextRowid {rows : List (AuditRow T V)} (numbered : Numbered rows) :
    AuditStore.nextRowid rows = rows.length + 1 := by
  have same : rows.map AuditRow.rid = List.range' 1 rows.length := numbered
  rw [AuditStore.nextRowid, same, foldl_max_range']

/-- A row under the next number keeps the numbering. -/
theorem Numbered.concat {rows : List (AuditRow T V)} (numbered : Numbered rows)
    {row : AuditRow T V} (next : row.rid = rows.length + 1) : Numbered (rows ++ [row]) := by
  have same : rows.map AuditRow.rid = List.range' 1 rows.length := numbered
  show (rows ++ [row]).map AuditRow.rid = List.range' 1 (rows ++ [row]).length
  rw [List.map_append, same, List.map_singleton, next, List.length_append, List.length_singleton,
    List.range'_concat, Nat.one_mul, Nat.add_comm]

/-- The rows behind a number are those behind that many rows. -/
theorem Numbered.filter_behind {front back : List (AuditRow T V)}
    (numbered : Numbered (front ++ back)) :
    (front ++ back).filter (fun row => front.length < row.rid) = back := by
  have front_none : front.filter (fun row => front.length < row.rid) = [] := by
    rw [List.filter_eq_nil_iff]
    intro row member
    obtain ⟨before, after, split⟩ := List.append_of_mem member
    have number : row.rid = before.length + 1 := by
      refine @Numbered.rid_last _ _ before row (@Numbered.take _ _ _ (after ++ back) ?_)
      simpa [split] using numbered
    simp [number, split]
  have back_all : back.filter (fun row => front.length < row.rid) = back := by
    rw [List.filter_eq_self]
    intro row member
    obtain ⟨before, after, split⟩ := List.append_of_mem member
    have number : row.rid = (front ++ before).length + 1 := by
      refine Numbered.rid_last (@Numbered.take _ _ _ after ?_)
      simpa [split] using numbered
    rw [number, List.length_append, decide_eq_true_eq]
    omega
  rw [List.filter_append, front_none, back_all, List.nil_append]

end Numbers

/-! ## Sorted events -/

section Sorted

variable {T : Type u} {V : Type v} [LinearOrder T]

/-- What the order of events compares. -/
def StoredEvent.key (event : StoredEvent T V) : T ×ₗ T :=
  toLex (event.instant, event.id)

theorem StoredEvent.ordered_iff {left right : StoredEvent T V} :
    left.Ordered right ↔ left.key ≤ right.key := by
  unfold StoredEvent.Ordered compareEvents StoredEvent.key
  rw [Prod.Lex.toLex_le_toLex]
  rcases lt_trichotomy left.instant right.instant with before | same | behind
  · simp [before]
  · rcases lt_trichotomy left.id right.id with before | sameId | behind
    · simp [same, before, before.le]
    · simp [same, sameId]
    · simp [same, behind, behind.not_gt, behind.not_ge]
  · simp [behind, behind.not_gt, behind.ne']

theorem StoredEvent.Ordered.refl (event : StoredEvent T V) : event.Ordered event :=
  StoredEvent.ordered_iff.mpr le_rfl

theorem StoredEvent.Ordered.trans {first second third : StoredEvent T V}
    (earlier : first.Ordered second) (later : second.Ordered third) : first.Ordered third :=
  StoredEvent.ordered_iff.mpr
    (le_trans (StoredEvent.ordered_iff.mp earlier) (StoredEvent.ordered_iff.mp later))

instance : Std.Total (StoredEvent.Ordered : StoredEvent T V → StoredEvent T V → Prop) where
  total left right := by
    rw [StoredEvent.ordered_iff, StoredEvent.ordered_iff]
    exact le_total left.key right.key

instance : IsTrans (StoredEvent T V) StoredEvent.Ordered where
  trans _ _ _ := StoredEvent.Ordered.trans

theorem mergeBatch_perm (events batch : List (StoredEvent T V)) :
    (mergeBatch events batch).Perm (events ++ batch) := by
  unfold mergeBatch
  split
  · rename_i none
    rw [List.head?_eq_none_iff.mp none, List.append_nil]
  · exact List.Perm.refl _
  · split
    · exact List.Perm.refl _
    · exact List.merge_perm_append _

theorem mergeBatch_sorted {events batch : List (StoredEvent T V)}
    (eventsSorted : events.Pairwise StoredEvent.Ordered)
    (batchSorted : batch.Pairwise StoredEvent.Ordered) :
    (mergeBatch events batch).Pairwise StoredEvent.Ordered := by
  unfold mergeBatch
  split
  · exact eventsSorted
  · rename_i none
    rw [List.getLast?_eq_none_iff.mp none]
    exact batchSorted
  · rename_i first last firstOf lastOf
    split
    · rename_i inOrder
      refine List.pairwise_append.mpr ⟨eventsSorted, batchSorted, ?_⟩
      intro old oldMember new newMember
      obtain ⟨front, rfl⟩ := List.getLast?_eq_some_iff.mp lastOf
      obtain ⟨rest, rfl⟩ := List.head?_eq_some_iff.mp firstOf
      have untilLast : old.Ordered last := by
        rcases List.mem_append.mp oldMember with earlier | same
        · exact (List.pairwise_append.mp eventsSorted).2.2 old earlier last (by simp)
        · rw [List.mem_singleton.mp same]
          exact .refl _
      have fromFirst : first.Ordered new := by
        rcases List.mem_cons.mp newMember with rfl | later
        · exact .refl _
        · exact (List.pairwise_cons.mp batchSorted).1 new later
      exact (untilLast.trans inOrder).trans fromFirst
    · have merged := @List.pairwise_merge (StoredEvent T V)
        (fun left right => decide (left.Ordered right))
        (fun first second third firstSecond secondThird => by
          simp only [decide_eq_true_eq] at firstSecond secondThird ⊢
          exact firstSecond.trans secondThird)
        (fun left right => by
          simpa only [Bool.or_eq_true, decide_eq_true_eq] using
            Std.Total.total (r := StoredEvent.Ordered) left right)
        events batch (by simpa using eventsSorted) (by simpa using batchSorted)
      simpa using merged

end Sorted

/-! ## What the cache holds -/

section Reflects

variable {T : Type u} {V : Type v} [LinearOrder T]

/-- The tail that the last row of a table leaves. -/
def AuditRow.tail (row : AuditRow T V) : CacheTail T where
  rid := row.rid
  id := row.id
  instant := row.occurredAt

/-- The cache holds the sorted events of the rows it has seen. -/
structure Reflects (cache : EventCache T V) (seen : List (AuditRow T V)) : Prop where
  events : cache.events.Perm (seen.filterMap AuditRow.event)
  sorted : cache.events.Pairwise StoredEvent.Ordered
  rowid : cache.rowid = seen.length
  tail : cache.tail = seen.getLast?.map AuditRow.tail

theorem Reflects.empty : Reflects (.empty : EventCache T V) [] where
  events := List.Perm.refl _
  sorted := List.Pairwise.nil
  rowid := rfl
  tail := rfl

/-- After the look at the tail, the rows that the cache has seen are the first
visible ones. -/
theorem checkTail_reflects {origin : T → List (AuditRow T V)} {cache : EventCache T V}
    {seen visible : List (AuditRow T V)} (reflects : Reflects cache seen)
    (seenRecorded : Recorded AuditRow.id origin seen)
    (recorded : Recorded AuditRow.id origin visible) :
    ∃ front, front <+: visible ∧ Reflects (checkTail cache visible) front := by
  have startOver : ∃ front, front <+: visible ∧ Reflects (.empty : EventCache T V) front :=
    ⟨[], List.nil_prefix, .empty⟩
  unfold checkTail
  cases last : seen.getLast? with
  | none =>
      have noTail : cache.tail = none := by rw [reflects.tail, last, Option.map_none]
      rw [noTail]
      refine ⟨seen, ?_, reflects⟩
      rw [List.getLast?_eq_none_iff.mp last]
      exact List.nil_prefix
  | some row =>
      have someTail : cache.tail = some row.tail := by rw [reflects.tail, last, Option.map_some]
      rw [someTail]
      dsimp only
      split
      · exact startOver
      · rename_i found foundAt
        split
        · exact startOver
        · rename_i same
          have sameId : found.id = row.id := by
            by_contra differ
            exact same (Or.inl differ)
          refine ⟨seen, ?_, reflects⟩
          exact recorded.prefix_of_last seenRecorded last (List.mem_of_find?_eq_some foundAt) sameId

omit [LinearOrder T] in
/-- Moving over the rows behind the seen ones reaches the end of the table. -/
theorem foldl_advance {rows : List (AuditRow T V)} {seen : List (AuditRow T V)}
    {cache : EventCache T V} (rowid : cache.rowid = seen.length)
    (tail : cache.tail = seen.getLast?.map AuditRow.tail) (numbered : Numbered (seen ++ rows)) :
    (rows.foldl EventCache.advance cache).rowid = (seen ++ rows).length ∧
      (rows.foldl EventCache.advance cache).tail = (seen ++ rows).getLast?.map AuditRow.tail := by
  induction rows generalizing seen cache with
  | nil => simpa using ⟨rowid, tail⟩
  | cons row rest inductionHypothesis =>
      have split : seen ++ row :: rest = (seen ++ [row]) ++ rest := by simp
      have number : row.rid = seen.length + 1 := (split ▸ numbered).take.rid_last
      rw [List.foldl_cons, split]
      refine inductionHypothesis ?_ ?_ (split ▸ numbered)
      · simp [EventCache.advance, rowid, number]
      · simp [EventCache.advance, AuditRow.tail]

/-- A read leaves a cache that has seen every visible row, and returns what it
holds. -/
theorem readEvents_reflects {origin : T → List (AuditRow T V)} {cache : EventCache T V}
    {seen visible : List (AuditRow T V)} (reflects : Reflects cache seen)
    (seenRecorded : Recorded AuditRow.id origin seen)
    (recorded : Recorded AuditRow.id origin visible) (numbered : Numbered visible) :
    Reflects (readEvents cache visible).1 visible ∧
      (readEvents cache visible).2 = (readEvents cache visible).1.events := by
  obtain ⟨front, ⟨back, rfl⟩, checked⟩ := checkTail_reflects reflects seenRecorded recorded
  refine ⟨?_, rfl⟩
  have behind : (front ++ back).filter
      (fun row => (checkTail cache (front ++ back)).rowid < row.rid) = back := by
    rw [checked.rowid]
    exact numbered.filter_behind
  obtain ⟨rowid, tail⟩ := foldl_advance checked.rowid checked.tail numbered
  unfold readEvents
  dsimp only
  rw [behind]
  constructor
  · refine (mergeBatch_perm _ _).trans ?_
    rw [List.filterMap_append]
    exact checked.events.append (List.perm_insertionSort _ _)
  · exact mergeBatch_sorted checked.sorted (List.pairwise_insertionSort _ _)
  · exact rowid
  · exact tail

/-- The events of rows under distinct ids have one sorted order. -/
theorem Reflects.eq_readAll {cache : EventCache T V} {seen : List (AuditRow T V)}
    (reflects : Reflects cache seen) (distinct : (seen.map AuditRow.id).Nodup) :
    cache.events = readAllEvents seen := by
  have ids : ((seen.filterMap AuditRow.event).map StoredEvent.id).Nodup :=
    (Table.filterMap_keys_sublist (fun _ _ => AuditRow.event_id) seen).nodup distinct
  have sorted := List.perm_insertionSort StoredEvent.Ordered (seen.filterMap AuditRow.event)
  refine (reflects.events.trans sorted.symm).eq_of_pairwise ?_ reflects.sorted
    (List.pairwise_insertionSort _ _)
  intro left right leftMember rightMember before behind
  have sameKey : left.key = right.key :=
    le_antisymm (StoredEvent.ordered_iff.mp before) (StoredEvent.ordered_iff.mp behind)
  have sameId : left.id = right.id := congrArg (fun key => (ofLex key).2) sameKey
  exact List.inj_on_of_nodup_map ids (reflects.events.mem_iff.mp leftMember)
    (sorted.mem_iff.mp rightMember) sameId

end Reflects

/-! ## Every history -/

section History

variable {T : Type u} {V : Type v} [LinearOrder T]

/-- The table and what the cache has seen are logs of one record, and every id of
them was used. -/
structure CacheInvariant (state : AuditStore T V) : Prop where
  record : ∃ origin seen, Recorded AuditRow.id origin state.table ∧
    Recorded AuditRow.id origin seen ∧ Reflects state.cache seen ∧
      ∀ row ∈ seen, row.id ∈ state.used
  numbered : Numbered state.table
  used : ∀ row ∈ state.table, row.id ∈ state.used

theorem CacheInvariant.initial : CacheInvariant (AuditStore.initial : AuditStore T V) where
  record := ⟨fun _ => [], [], .nil, .nil, .empty, by simp⟩
  numbered := .nil
  used := by simp [AuditStore.table, AuditStore.initial]

/-- Shortening the table keeps the invariant. -/
theorem CacheInvariant.shorten {state next : AuditStore T V} (holds : CacheInvariant state)
    (start : next.table <+: state.table) (cache : next.cache = state.cache)
    (used : next.used = state.used) : CacheInvariant next := by
  obtain ⟨origin, seen, recorded, seenRecorded, reflects, seenUsed⟩ := holds.record
  constructor
  · exact ⟨origin, seen, recorded.start start, seenRecorded, cache ▸ reflects, used ▸ seenUsed⟩
  · exact holds.numbered.of_prefix start
  · exact fun row member => used ▸ holds.used row (start.subset member)

/-- A row under an unused id keeps the invariant. -/
theorem CacheInvariant.append {state next : AuditStore T V} (holds : CacheInvariant state)
    (row : AuditRow T V) (fresh : row.id ∉ state.used)
    (number : row.rid = AuditStore.nextRowid state.table)
    (table : next.table = state.table ++ [row]) (cache : next.cache = state.cache)
    (used : next.used = row.id :: state.used) : CacheInvariant next := by
  obtain ⟨origin, seen, recorded, seenRecorded, reflects, seenUsed⟩ := holds.record
  have freshIn : ∀ rows : List (AuditRow T V), (∀ old ∈ rows, old.id ∈ state.used) →
      ∀ old ∈ rows, old.id ≠ row.id := fun rows inUsed old member same =>
    fresh (same ▸ inUsed old member)
  constructor
  · refine ⟨Function.update origin row.id (state.table ++ [row]), seen, ?_, ?_, cache ▸ reflects, ?_⟩
    · rw [table]
      exact recorded.append (freshIn _ holds.used)
    · exact seenRecorded.update _ (freshIn _ seenUsed)
    · rw [used]
      exact fun old member => List.mem_cons_of_mem _ (seenUsed old member)
  · rw [table]
    exact holds.numbered.concat (number.trans holds.numbered.nextRowid)
  · rw [table, used]
    intro old member
    rcases List.mem_append.mp member with before | new
    · exact List.mem_cons_of_mem _ (holds.used old before)
    · rw [List.mem_singleton.mp new]
      exact List.mem_cons_self

/-- A read keeps the invariant: the cache has then seen the visible rows. -/
theorem CacheInvariant.read {state : AuditStore T V} (holds : CacheInvariant state) :
    Reflects (readEvents state.cache state.visible).1 state.visible ∧
      CacheInvariant { state with cache := (readEvents state.cache state.visible).1 } := by
  obtain ⟨origin, seen, recorded, seenRecorded, reflects, -⟩ := holds.record
  have visibleRecorded := recorded.start state.visible_prefix
  obtain ⟨afterRead, -⟩ := readEvents_reflects reflects seenRecorded visibleRecorded
    (holds.numbered.of_prefix state.visible_prefix)
  refine ⟨afterRead, ?_, holds.numbered, holds.used⟩
  exact ⟨origin, state.visible, recorded, visibleRecorded, afterRead,
    fun row member => holds.used row (state.visible_prefix.subset member)⟩

theorem CacheInvariant.step {state next : AuditStore T V} {command : AuditCommand T V}
    (holds : CacheInvariant state) (fresh : state.FreshId command)
    (success : AuditStore.step command state = .ok next) : CacheInvariant next := by
  unfold AuditStore.step at success
  split at success
  · obtain rfl := Except.ok.inj success
    rename_i closed
    refine holds.shorten ?_ rfl rfl
    simp [AuditStore.table, closed]
  · cases success
  · obtain rfl := Except.ok.inj success
    rename_i row writer rows open'
    refine holds.append { row with rid := AuditStore.nextRowid (state.committed ++ rows) } fresh
      ?_ ?_ rfl rfl
    · simp [AuditStore.table, open']
    · simp [AuditStore.table, open']
  · obtain rfl := Except.ok.inj success
    rename_i writer rows open'
    refine holds.shorten ?_ rfl rfl
    simp [AuditStore.table, open']
  · obtain rfl := Except.ok.inj success
    refine holds.shorten ?_ rfl rfl
    simp [AuditStore.table]
  · cases success
  · cases success
  · cases success
  · obtain rfl := Except.ok.inj success
    exact holds.read.2

/-- In every history of transactions, commits, rollbacks and reads, by this
connection or another one, a read returns the events of the rows visible at that
moment, each once, sorted by instant and id. -/
theorem readEvents_eq_readAll {state : AuditStore T V}
    (history : Reaches AuditStore.step AuditStore.FreshId .initial state) :
    (readEvents state.cache state.visible).2 = readAllEvents state.visible ∧
      ((readEvents state.cache state.visible).2.map StoredEvent.id).Nodup := by
  have holds : CacheInvariant state :=
    history.invariant .initial fun _ _ _ kept fresh success => kept.step fresh success
  obtain ⟨origin, seen, recorded, -⟩ := holds.record
  have distinct := (recorded.start state.visible_prefix).nodup
  have same := holds.read.1.eq_readAll distinct
  refine ⟨same, ?_⟩
  have ids : ((state.visible.filterMap AuditRow.event).map StoredEvent.id).Nodup :=
    (Table.filterMap_keys_sublist (fun _ _ => AuditRow.event_id) state.visible).nodup distinct
  exact ((holds.read.1.events.map StoredEvent.id).nodup_iff).mpr ids

end History

/-- An audit row about an event; the table gives the row number. -/
def sampleRow (id : Nat) : AuditRow Nat Unit where
  rid := 0
  id := id
  entityType := "execution_run"
  entityId := "first"
  newState := some "active"
  reason := "backend event"
  snapshot := none
  occurredAt := 0

/-- The store reads the row it inserted, rolls back, and its number goes to a row
of another connection. -/
def numberReused : AuditStore Nat Unit :=
  Machine.applyAll AuditStore.step .initial
    [.begin .other, .append (sampleRow 1), .commit,
      .begin .store, .append (sampleRow 2), .read, .rollback,
      .begin .other, .append (sampleRow 3), .commit]

theorem readEvents_eq_readAll_sample :
    numberReused.visible.map AuditRow.rid = [1, 2] ∧
      (readEvents numberReused.cache numberReused.visible).2.map StoredEvent.id = [1, 3] := by
  have history : Reaches AuditStore.step AuditStore.FreshId .initial numberReused :=
    (Reaches.refl _).applyAll (by decide +kernel)
  rw [(readEvents_eq_readAll history).1]
  decide +kernel

end MintBot
