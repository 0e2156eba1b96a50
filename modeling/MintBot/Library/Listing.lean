import Mathlib.Data.List.Perm.Subperm
import MintBot.Library.OrderedMap

/-!
# Lists with one entry for each key

A history is listed with one entry for each key: the last row of a key, by a newer row taking the
place of the one that is kept, or the first, by rows whose key is listed being passed over.  A list
is read page by page, each page with the position of the next.
-/

namespace Listing

universe u v w

section PerKey

variable {α : Type u} {κ : Type v} {β : Type w} [DecidableEq κ]
variable (keyOf : α → κ) (atLeast : α → α → Prop) [DecidableRel atLeast]

/-- A row takes the place of the kept one that it is at least as new as. -/
def keepNewer (map : OrderedMap κ α) (row : α) : OrderedMap κ α :=
  match map.get (keyOf row) with
  | none => map.set (keyOf row) row
  | some kept => if atLeast row kept then map.set (keyOf row) row else map

def lastPerKey (rows : List α) : OrderedMap κ α :=
  rows.foldl (keepNewer keyOf atLeast) []

variable {keyOf atLeast} {rows : List α} {row : α} {key : κ}

variable (keyOf atLeast) in
theorem keepNewer_cases (map : OrderedMap κ α) (row : α) :
    keepNewer keyOf atLeast map row = map.set (keyOf row) row ∧
        (∀ kept ∈ map.get (keyOf row), atLeast row kept) ∨
      keepNewer keyOf atLeast map row = map ∧ ∃ kept ∈ map.get (keyOf row), ¬ atLeast row kept := by
  unfold keepNewer
  cases present : map.get (keyOf row) with
  | none => exact .inl ⟨rfl, fun kept isKept => nomatch isKept⟩
  | some kept =>
      by_cases newer : atLeast row kept
      · refine .inl ⟨if_pos newer, fun other isOther => ?_⟩
        cases isOther
        exact newer
      · exact .inr ⟨if_neg newer, kept, rfl, newer⟩

/-- What is kept of the rows: an entry for each key, which is one of its rows, and which every
other row of the key comes before. -/
structure Kept (keyOf : α → κ) (before : α → α → Prop) (rows : List α) (map : OrderedMap κ α) :
    Prop where
  distinct : (map.map Prod.fst).Nodup
  listed : ∀ row ∈ rows, (map.get (keyOf row)).isSome
  own : ∀ key row, map.get key = some row → row ∈ rows ∧ keyOf row = key
  last : ∀ key row, map.get key = some row → ∀ other ∈ rows, keyOf other = key → before other row

/-- A row that is not before the kept one is after all the others of its key; a row that is before
it changes nothing. -/
theorem Kept.keepNewer {before : α → α → Prop} {map : OrderedMap κ α}
    (kept : Kept keyOf before rows map) (reflexive : before row row)
    (newest : ∀ old ∈ rows, keyOf old = keyOf row → atLeast row old →
      ∀ other ∈ rows, before other old → before other row)
    (oldest : ∀ old ∈ rows, keyOf old = keyOf row → ¬ atLeast row old → before row old) :
    Kept keyOf before (rows ++ [row]) (keepNewer keyOf atLeast map row) := by
  rcases keepNewer_cases keyOf atLeast map row with
    ⟨same, newer⟩ | ⟨same, old, isOld, notNewer⟩
  · rw [same]
    refine ⟨OrderedMap.nodup_set kept.distinct, ?_, ?_, ?_⟩
    · intro other member
      by_cases sameKey : keyOf other = keyOf row
      · rw [sameKey, OrderedMap.get_set_same]
        rfl
      · rw [OrderedMap.get_set_other sameKey]
        rcases List.mem_append.mp member with inRows | isRow
        · exact kept.listed other inRows
        · exact absurd (congrArg keyOf (List.mem_singleton.mp isRow)) sameKey
    · intro key found isFound
      by_cases sameKey : key = keyOf row
      · subst sameKey
        rw [OrderedMap.get_set_same, Option.some.injEq] at isFound
        exact ⟨List.mem_append_right _ (List.mem_singleton.mpr isFound.symm),
          congrArg keyOf isFound.symm⟩
      · rw [OrderedMap.get_set_other sameKey] at isFound
        obtain ⟨inRows, isKey⟩ := kept.own key found isFound
        exact ⟨List.mem_append_left _ inRows, isKey⟩
    · intro key found isFound other member isKey
      by_cases sameKey : key = keyOf row
      · subst sameKey
        rw [OrderedMap.get_set_same, Option.some.injEq] at isFound
        subst isFound
        rcases List.mem_append.mp member with inRows | isRow
        · obtain ⟨old, isOld⟩ := Option.isSome_iff_exists.mp (kept.listed other inRows)
          rw [isKey] at isOld
          obtain ⟨oldIn, oldKey⟩ := kept.own _ old isOld
          exact newest old oldIn oldKey (newer old isOld) other inRows
            (kept.last _ old isOld other inRows isKey)
        · rw [List.mem_singleton.mp isRow]
          exact reflexive
      · rw [OrderedMap.get_set_other sameKey] at isFound
        rcases List.mem_append.mp member with inRows | isRow
        · exact kept.last key found isFound other inRows isKey
        · rw [List.mem_singleton.mp isRow] at isKey
          exact absurd isKey.symm sameKey
  · rw [same]
    refine ⟨kept.distinct, ?_, ?_, ?_⟩
    · intro other member
      rcases List.mem_append.mp member with inRows | isRow
      · exact kept.listed other inRows
      · rw [List.mem_singleton.mp isRow, Option.mem_def.mp isOld]
        rfl
    · intro key found isFound
      obtain ⟨inRows, isKey⟩ := kept.own key found isFound
      exact ⟨List.mem_append_left _ inRows, isKey⟩
    · intro key found isFound other member isKey
      rcases List.mem_append.mp member with inRows | isRow
      · exact kept.last key found isFound other inRows isKey
      · rw [List.mem_singleton.mp isRow] at isKey ⊢
        subst isKey
        rw [Option.mem_def.mp isOld, Option.some.injEq] at isFound
        subst isFound
        obtain ⟨oldIn, oldKey⟩ := kept.own _ _ isOld
        exact oldest _ oldIn oldKey notNewer

/-- When the rows come in an order in which each is after the earlier ones of its key or before
the kept one, the last rows are kept. -/
theorem kept_lastPerKey {before : α → α → Prop} {ordered : α → α → Prop}
    (sorted : rows.Pairwise ordered) (reflexive : ∀ row, before row row)
    (newest : ∀ old row, atLeast row old → ∀ other, ordered other row → before other old →
      before other row)
    (oldest : ∀ old row, ¬ atLeast row old → before row old) :
    Kept keyOf before rows (lastPerKey keyOf atLeast rows) := by
  induction rows using List.reverseRecOn with
  | nil =>
      constructor
      · exact List.nodup_nil
      · intro row member
        cases member
      · intro key row found
        cases found
      · intro key row found
        cases found
  | append_singleton rows row inductionHypothesis =>
      obtain ⟨sortedRows, -, behind⟩ := List.pairwise_append.mp sorted
      rw [lastPerKey, List.foldl_append, List.foldl_cons, List.foldl_nil, ← lastPerKey]
      exact (inductionHypothesis sortedRows).keepNewer (reflexive row)
        (fun old _ _ newer other member =>
          newest old row newer other (behind other member row (List.mem_singleton_self _)))
        fun old _ _ => oldest old row

end PerKey

section Append

variable {α : Type u} {κ : Type v} {β : Type w} [DecidableEq κ]

/-- An entry for a row whose key is not listed. -/
def listNew (keyOf : α → κ) (entryKey : β → κ) (entry : α → β) (entries : List β) (row : α) :
    List β :=
  if keyOf row ∈ entries.map entryKey then entries else entries ++ [entry row]

/-- What the rows add to a list: an entry for the first row of each key that was not listed. -/
structure Added (keyOf : α → κ) (entryKey : β → κ) (entry : α → β) (listed : List β)
    (rows : List α) (added : List β) : Prop where
  distinct : (added.map entryKey).Nodup
  listed_iff : ∀ key, key ∈ added.map entryKey ↔
    key ∉ listed.map entryKey ∧ ∃ row ∈ rows, keyOf row = key
  first : ∀ item ∈ added, ∃ row, rows.find? (fun other => keyOf other = entryKey item) = some row ∧
    item = entry row

variable {keyOf : α → κ} {entryKey : β → κ} {entry : α → β} {listed : List β} {rows : List α}

theorem exists_added (sameKey : ∀ row, entryKey (entry row) = keyOf row) :
    ∃ added, rows.foldl (listNew keyOf entryKey entry) listed = listed ++ added ∧
      Added keyOf entryKey entry listed rows added := by
  induction rows using List.reverseRecOn with
  | nil =>
      refine ⟨[], (List.append_nil _).symm, List.nodup_nil, ?_, fun item member => nomatch member⟩
      simp
  | append_singleton rows row inductionHypothesis =>
      obtain ⟨added, result, spec⟩ := inductionHypothesis
      rw [List.foldl_append, List.foldl_cons, List.foldl_nil, result, listNew, List.map_append]
      have older : ∀ item ∈ added, ∃ first,
          (rows ++ [row]).find? (fun other => keyOf other = entryKey item) = some first ∧
            item = entry first := by
        intro item member
        obtain ⟨first, search, same⟩ := spec.first item member
        exact ⟨first, by rw [List.find?_append, search, Option.some_or], same⟩
      by_cases known : keyOf row ∈ listed.map entryKey ++ added.map entryKey
      · rw [if_pos known]
        refine ⟨added, rfl, spec.distinct, fun key => ?_, older⟩
        rw [spec.listed_iff key]
        refine and_congr_right fun fresh => ⟨fun ⟨other, member, isKey⟩ =>
          ⟨other, List.mem_append_left _ member, isKey⟩, ?_⟩
        rintro ⟨other, member, rfl⟩
        rcases List.mem_append.mp member with inRows | isRow
        · exact ⟨other, inRows, rfl⟩
        · obtain rfl := List.mem_singleton.mp isRow
          exact ((spec.listed_iff _).mp ((List.mem_append.mp known).resolve_left fresh)).2
      · rw [if_neg known, List.append_assoc]
        obtain ⟨fresh, notAdded⟩ := not_or.mp (mt List.mem_append.mpr known)
        have new : ∀ other ∈ rows, keyOf other ≠ keyOf row := fun other member same =>
          notAdded ((spec.listed_iff _).mpr ⟨fresh, other, member, same⟩)
        refine ⟨added ++ [entry row], rfl, ?_, fun key => ?_, ?_⟩
        · rw [List.map_append, List.map_singleton, sameKey, ← List.concat_eq_append,
            List.nodup_concat]
          exact ⟨notAdded, spec.distinct⟩
        · rw [List.map_append, List.mem_append, spec.listed_iff key, List.map_singleton,
            List.mem_singleton, sameKey]
          constructor
          · rintro (⟨unlisted, other, member, isKey⟩ | rfl)
            · exact ⟨unlisted, other, List.mem_append_left _ member, isKey⟩
            · exact ⟨fresh, row, List.mem_append_right _ (List.mem_singleton_self _), rfl⟩
          · rintro ⟨unlisted, other, member, isKey⟩
            rcases List.mem_append.mp member with inRows | isRow
            · exact .inl ⟨unlisted, other, inRows, isKey⟩
            · exact .inr (isKey.symm.trans (congrArg keyOf (List.mem_singleton.mp isRow)))
        · intro item member
          rcases List.mem_append.mp member with inAdded | isEntry
          · exact older item inAdded
          · obtain rfl := List.mem_singleton.mp isEntry
            refine ⟨row, ?_, rfl⟩
            rw [List.find?_append, List.find?_eq_none.mpr fun other member => by
              simpa [sameKey] using new other member, Option.none_or]
            simp [sameKey]

end Append

/-- Distinct keys of rows are not more than the rows. -/
theorem length_le_of_keys {α : Type u} {κ : Type v} {keyOf : α → κ} {keys : List κ} {rows : List α}
    (distinct : keys.Nodup) (known : ∀ key ∈ keys, ∃ row ∈ rows, keyOf row = key) :
    keys.length ≤ rows.length := by
  have inside : keys ⊆ rows.map keyOf := fun key member => List.mem_map.mpr (known key member)
  have few := (List.subperm_of_subset distinct inside).length_le
  rwa [List.length_map] at few

/-! ## Pages -/

section Pages

variable {α : Type u}

/-- The items from a position on, as many as a page holds, and the position of the next page. -/
def page (values : List α) (limit cursor : Nat) : List α × Option Nat :=
  ((values.drop cursor).take limit,
    if cursor + limit < values.length then some (cursor + limit) else none)

/-- Reading page after page ends with these items. -/
inductive Reads (values : List α) (limit : Nat) : Nat → List α → Prop
  | last {cursor : Nat} (ends : (page values limit cursor).2 = none) :
      Reads values limit cursor (page values limit cursor).1
  | more {cursor next : Nat} {rest : List α} (goesOn : (page values limit cursor).2 = some next)
      (others : Reads values limit next rest) :
      Reads values limit cursor ((page values limit cursor).1 ++ rest)

variable {values : List α} {limit cursor : Nat} {items : List α}

theorem next_lt {next : Nat} (goesOn : (page values limit cursor).2 = some next) :
    next < values.length := by
  unfold page at goesOn
  split_ifs at goesOn with before
  obtain rfl := Option.some.inj goesOn
  exact before

/-- The pages are the whole list, each item once. -/
theorem reads_iff (positive : values ≠ [] → 0 < limit) :
    Reads values limit cursor items ↔ items = values.drop cursor := by
  constructor
  · intro reads
    induction reads with
    | @last cursor ends =>
        have short : values.length ≤ cursor + limit := by simpa [page] using ends
        exact List.take_of_length_le (by rw [List.length_drop]; omega)
    | @more cursor next rest goesOn others inductionHypothesis =>
        obtain ⟨-, rfl⟩ : cursor + limit < values.length ∧ cursor + limit = next := by
          simpa [page] using goesOn
        rw [inductionHypothesis, page, ← List.drop_drop, List.take_append_drop]
  · rintro rfl
    induction left : values.length - cursor using Nat.strongRecOn generalizing cursor with
    | ind left inductionHypothesis =>
        by_cases short : values.length ≤ cursor + limit
        · have ends : (page values limit cursor).2 = none := by simp [page, short]
          have whole : (page values limit cursor).1 = values.drop cursor :=
            List.take_of_length_le (by rw [List.length_drop]; omega)
          exact whole ▸ Reads.last ends
        · have goesOn : (page values limit cursor).2 = some (cursor + limit) := by
            simp [page, Nat.not_le.mp short]
          have progress : 0 < limit := positive (List.ne_nil_of_length_pos (by omega))
          have others := inductionHypothesis (values.length - (cursor + limit)) (by omega) rfl
          have whole : (page values limit cursor).1 ++ values.drop (cursor + limit) =
              values.drop cursor := by
            rw [page, ← List.drop_drop, List.take_append_drop]
          exact whole ▸ Reads.more goesOn others

end Pages

end Listing
