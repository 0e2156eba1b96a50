import Mathlib.Data.List.Basic
import Mathlib.Data.List.Dedup
import Mathlib.Data.List.Induction
import Mathlib.Tactic.Common
import Mathlib.Tactic.TypeStar

/-!
# Maps that keep the order of their keys

A map is the list of its entries in the order their keys were first set.  Setting a key that
is there changes its entry in place.
-/

universe u v

/-- The entries of a map, in the order of their keys. -/
abbrev OrderedMap (κ : Type u) (α : Type v) := List (κ × α)

namespace OrderedMap

variable {κ : Type u} {α : Type v} [DecidableEq κ]

def get (map : OrderedMap κ α) (key : κ) : Option α :=
  (map.find? fun entry => entry.1 = key).map Prod.snd

def set (map : OrderedMap κ α) (key : κ) (value : α) : OrderedMap κ α :=
  if (map.get key).isSome then
    map.map fun entry => if entry.1 = key then (key, value) else entry
  else map ++ [(key, value)]

def delete (map : OrderedMap κ α) (key : κ) : OrderedMap κ α :=
  map.filter fun entry => entry.1 ≠ key

variable {map : OrderedMap κ α} {key : κ} {value : α}

theorem mem_of_get (found : map.get key = some value) : (key, value) ∈ map := by
  simp only [get, Option.map_eq_some_iff] at found
  obtain ⟨entry, search, rfl⟩ := found
  have same : entry.1 = key := by simpa using List.find?_some search
  rw [← same]
  exact List.mem_of_find?_eq_some search

theorem get_eq_none_iff : map.get key = none ↔ ∀ entry ∈ map, entry.1 ≠ key := by
  simp [get]

/-- What a map holds after an entry was set was there before, or it is that entry. -/
theorem mem_set {entry : κ × α} (member : entry ∈ map.set key value) :
    entry = (key, value) ∨ entry ∈ map := by
  unfold set at member
  split at member
  · obtain ⟨before, memberBefore, rfl⟩ := List.mem_map.mp member
    split
    · exact .inl rfl
    · exact .inr memberBefore
  · rcases List.mem_append.mp member with before | now
    · exact .inr before
    · exact .inl (List.mem_singleton.mp now)

theorem mem_delete {entry : κ × α} (member : entry ∈ map.delete key) : entry ∈ map :=
  (List.mem_filter.mp member).1

theorem find_set_in_place {entries : OrderedMap κ α} (present : (OrderedMap.get entries key).isSome) :
    (entries.map fun entry => if entry.1 = key then (key, value) else entry).find?
      (fun entry => entry.1 = key) = some (key, value) := by
  induction entries with
  | nil => cases present
  | cons entry rest inductionHypothesis =>
      by_cases same : entry.1 = key
      · simp [same]
      · have later : (OrderedMap.get rest key).isSome := by
          simpa [get, same] using present
        rw [List.map_cons, if_neg same, List.find?_cons_of_neg (by simpa using same)]
        exact inductionHypothesis later

@[simp]
theorem get_set_same : (map.set key value).get key = some value := by
  unfold set
  split
  · rename_i present
    rw [get, find_set_in_place present]
    rfl
  · rename_i absent
    have missing : map.find? (fun entry => entry.1 = key) = none := by
      rw [get, Option.isSome_map, Bool.not_eq_true, Option.isSome_eq_false_iff,
        Option.isNone_iff_eq_none] at absent
      exact absent
    simp [get, List.find?_append, missing]

theorem find_map_other {other : κ} (different : other ≠ key) (entries : OrderedMap κ α) :
    (entries.map fun entry => if entry.1 = key then (key, value) else entry).find?
      (fun entry => entry.1 = other) = entries.find? fun entry => entry.1 = other := by
  induction entries with
  | nil => rfl
  | cons entry rest inductionHypothesis =>
      rw [List.map_cons]
      by_cases same : entry.1 = key
      · rw [if_pos same, List.find?_cons_of_neg (by simpa using different.symm),
          List.find?_cons_of_neg (by simpa [same] using different.symm), inductionHypothesis]
      · rw [if_neg same, List.find?_cons, List.find?_cons, inductionHypothesis]

theorem get_set_other {other : κ} (different : other ≠ key) :
    (map.set key value).get other = map.get other := by
  unfold set
  split
  · rw [get, find_map_other different, get]
  · simp [get, List.find?_append, Ne.symm different]

@[simp]
theorem get_delete_same : (map.delete key).get key = none := by
  simp [get_eq_none_iff, delete]

theorem get_delete_other {other : κ} (different : other ≠ key) :
    (map.delete key).get other = map.get other := by
  rw [get, delete, List.find?_filter, get]
  congr 2
  funext entry
  by_cases same : entry.1 = other
  · simp [same, different]
  · simp [same]

@[simp]
theorem get_cons {entries : OrderedMap κ α} {entry : κ × α} :
    OrderedMap.get (entry :: entries) key =
      if entry.1 = key then some entry.2 else OrderedMap.get entries key := by
  unfold get
  by_cases same : entry.1 = key
  · simp [same]
  · simp [same]

theorem keys_set_in_place :
    (map.map fun entry => if entry.1 = key then (key, value) else entry).map Prod.fst =
      map.map Prod.fst := by
  rw [List.map_map]
  refine List.map_congr_left fun entry _ => ?_
  by_cases same : entry.1 = key
  · simp [same]
  · simp [same]

/-- The keys of a map are those it had, and the one that was set. -/
theorem mem_keys_set {other : κ} :
    other ∈ (map.set key value).map Prod.fst ↔ other = key ∨ other ∈ map.map Prod.fst := by
  unfold set
  split
  · rename_i present
    have inside : key ∈ map.map Prod.fst := by
      obtain ⟨found, same⟩ := Option.isSome_iff_exists.mp present
      exact List.mem_map.mpr ⟨_, mem_of_get same, rfl⟩
    rw [keys_set_in_place]
    constructor
    · exact .inr
    · rintro (rfl | before)
      · exact inside
      · exact before
  · simp [or_comm]

/-- Setting a key never makes a second entry for it. -/
theorem nodup_set (distinct : (map.map Prod.fst).Nodup) :
    ((map.set key value).map Prod.fst).Nodup := by
  unfold set
  split
  · rw [keys_set_in_place]
    exact distinct
  · rename_i absent
    have missing := get_eq_none_iff.mp (Option.not_isSome_iff_eq_none.mp absent)
    rw [List.map_append, List.nodup_append]
    refine ⟨distinct, List.pairwise_singleton _ _, fun first inside second single same => ?_⟩
    obtain ⟨entry, member, rfl⟩ := List.mem_map.mp inside
    exact missing entry member (same.trans (List.mem_singleton.mp single))

/-- With distinct keys, every entry is the one its key is mapped to. -/
theorem get_of_mem (distinct : (map.map Prod.fst).Nodup) (member : (key, value) ∈ map) :
    map.get key = some value := by
  induction map with
  | nil => cases member
  | cons entry rest inductionHypothesis =>
      rw [List.map_cons, List.nodup_cons] at distinct
      rw [get_cons]
      rcases List.mem_cons.mp member with rfl | inside
      · rw [if_pos rfl]
      · have later : entry.1 ≠ key := fun same =>
          distinct.1 (same ▸ List.mem_map_of_mem inside)
        rw [if_neg later]
        exact inductionHypothesis distinct.2 inside

/-- Keys without repetition, in the order of their first appearance. -/
def firsts (keys : List κ) : List κ :=
  keys.reverse.dedup.reverse

theorem mem_firsts {keys : List κ} : key ∈ firsts keys ↔ key ∈ keys := by
  simp [firsts]

theorem nodup_firsts (keys : List κ) : (firsts keys).Nodup :=
  List.nodup_reverse.mpr (List.nodup_dedup _)

theorem firsts_map {κ' : Type*} [DecidableEq κ'] {text : κ → κ'}
    (injective : Function.Injective text) (keys : List κ) :
    firsts (keys.map text) = (firsts keys).map text := by
  rw [firsts, ← List.map_reverse, List.dedup_map_of_injective injective, ← List.map_reverse,
    ← firsts]

/-- A key that comes last is a first appearance when it is new. -/
theorem firsts_concat (keys : List κ) :
    firsts (keys ++ [key]) = if key ∈ keys then firsts keys else firsts keys ++ [key] := by
  rw [firsts, List.reverse_append, List.reverse_singleton, List.singleton_append]
  by_cases known : key ∈ keys
  · rw [if_pos known, List.dedup_cons_of_mem (List.mem_reverse.mpr known), ← firsts]
  · rw [if_neg known, List.dedup_cons_of_notMem (mt List.mem_reverse.mp known),
      List.reverse_cons, ← firsts]

section Collect

variable {β : Type*} (keyOf : β → κ) (valueOf : β → α)

/-- Rows set one after the other: each key has the value of its last row. -/
theorem get_foldl_set (rows : List β) (start : OrderedMap κ α) (key : κ) :
    OrderedMap.get (rows.foldl (fun map row => set map (keyOf row) (valueOf row)) start) key =
      ((rows.reverse.find? fun row => keyOf row = key).map valueOf).or (start.get key) := by
  induction rows generalizing start with
  | nil => rfl
  | cons row rest inductionHypothesis =>
      rw [List.foldl_cons, inductionHypothesis, List.reverse_cons, List.find?_append]
      by_cases same : keyOf row = key
      · subst same
        cases rest.reverse.find? fun other => keyOf other = keyOf row <;> simp
      · rw [get_set_other (Ne.symm same)]
        cases rest.reverse.find? fun other => keyOf other = key <;> simp [same]

/-- The keys of the rows are kept in the order of their first appearance. -/
theorem keys_foldl_set (rows : List β) :
    (rows.foldl (fun map row => set map (keyOf row) (valueOf row)) []).map Prod.fst =
      firsts (rows.map keyOf) := by
  induction rows using List.reverseRecOn with
  | nil => rfl
  | append_singleton rows row inductionHypothesis =>
      have known : (OrderedMap.get (rows.foldl (fun map row => set map (keyOf row) (valueOf row)) [])
          (keyOf row)).isSome ↔ keyOf row ∈ rows.map keyOf := by
        rw [← mem_firsts, ← inductionHypothesis, ← not_iff_not, Option.not_isSome_iff_eq_none,
          get_eq_none_iff, List.mem_map]
        simp only [ne_eq, not_exists, not_and]
      rw [List.foldl_append, List.foldl_cons, List.foldl_nil, List.map_append, List.map_singleton,
        firsts_concat, ← inductionHypothesis, set]
      by_cases present : keyOf row ∈ rows.map keyOf
      · rw [if_pos (known.mpr present), if_pos present, keys_set_in_place]
      · rw [if_neg (mt known.mp present), if_neg present, List.map_append, List.map_singleton]

theorem nodup_foldl_set (rows : List β) {start : OrderedMap κ α}
    (distinct : (start.map Prod.fst).Nodup) :
    ((rows.foldl (fun map row => set map (keyOf row) (valueOf row)) start).map
      Prod.fst).Nodup := by
  induction rows generalizing start with
  | nil => exact distinct
  | cons row rest inductionHypothesis => exact inductionHypothesis (nodup_set distinct)

/-- The values that the rows leave. -/
theorem mem_values_foldl_set (rows : List β) (value : α) :
    value ∈ (rows.foldl (fun map row => set map (keyOf row) (valueOf row)) []).map Prod.snd ↔
      ∃ key row, rows.reverse.find? (fun row => keyOf row = key) = some row ∧
        valueOf row = value := by
  have found (key : κ) := get_foldl_set keyOf valueOf rows [] key
  have noKeys : (([] : OrderedMap κ α).map Prod.fst).Nodup := List.nodup_nil
  constructor
  · intro member
    obtain ⟨⟨key, value⟩, inside, rfl⟩ := List.mem_map.mp member
    have mapped := get_of_mem (nodup_foldl_set keyOf valueOf rows noKeys) inside
    rw [found] at mapped
    cases last : rows.reverse.find? fun row => keyOf row = key with
    | none => simp [last, get] at mapped
    | some row => exact ⟨key, row, last, by simpa [last] using mapped⟩
  · rintro ⟨key, row, last, rfl⟩
    have mapped := found key
    rw [last, Option.map_some, Option.some_or] at mapped
    exact List.mem_map.mpr ⟨_, mem_of_get mapped, rfl⟩

end Collect

end OrderedMap
