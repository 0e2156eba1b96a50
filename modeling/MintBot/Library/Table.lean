import Mathlib.Data.List.Forall2
import Mathlib.Data.List.Nodup

/-!
# Tables as lists of rows

A table is a list of rows with a key function.  `lookup` reads the first row of
a key and `update` rewrites the rows of a key in place, so that the order of
the rows is kept.
-/

namespace Table

universe u v w

variable {ρ : Type u} {κ : Type v} [DecidableEq κ] (key : ρ → κ)

/-- The first row with the given key. -/
def lookup (id : κ) (rows : List ρ) : Option ρ :=
  rows.find? fun row => key row = id

/-- Rewrite the rows with the given key. -/
def update (id : κ) (change : ρ → ρ) (rows : List ρ) : List ρ :=
  rows.map fun row => if key row = id then change row else row

/-- The row with the greatest instant; rows of one instant are ordered by their
text. -/
def newest (instant : ρ → Int) (text : ρ → String) (rows : List ρ) : Option ρ :=
  rows.foldl (fun best row =>
    match best with
    | none => some row
    | some other =>
        if instant other < instant row ∨ (instant other = instant row ∧ text other < text row)
        then some row else some other) none

variable {key}

theorem lookup_eq_some {id : κ} {rows : List ρ} {row : ρ}
    (found : lookup key id rows = some row) : row ∈ rows ∧ key row = id :=
  ⟨List.mem_of_find?_eq_some found, by simpa using List.find?_some found⟩

theorem lookup_eq_none {id : κ} {rows : List ρ} :
    lookup key id rows = none ↔ ∀ row ∈ rows, key row ≠ id := by
  simp [lookup]

/-- With distinct keys, a row of the table is the one its key finds. -/
theorem lookup_of_mem {rows : List ρ} (distinct : (rows.map key).Nodup) {row : ρ}
    (member : row ∈ rows) : lookup key (key row) rows = some row := by
  induction rows with
  | nil => simp at member
  | cons first rest inductionHypothesis =>
      rw [List.map_cons, List.nodup_cons] at distinct
      rcases List.mem_cons.mp member with rfl | member
      · simp [lookup]
      · have differ : key first ≠ key row := by
          intro same
          exact distinct.1 (same ▸ List.mem_map_of_mem member)
        have found := inductionHypothesis distinct.2 member
        simpa [lookup, List.find?_cons, differ] using found

theorem mem_update {id : κ} {change : ρ → ρ} {rows : List ρ} {row : ρ} :
    row ∈ update key id change rows ↔
      (row ∈ rows ∧ key row ≠ id) ∨ ∃ old ∈ rows, key old = id ∧ row = change old := by
  constructor
  · intro member
    rcases List.mem_map.mp member with ⟨old, oldMember, rewritten⟩
    by_cases matched : key old = id
    · exact Or.inr ⟨old, oldMember, matched, by simpa [matched] using rewritten.symm⟩
    · rw [if_neg matched] at rewritten
      exact Or.inl ⟨rewritten ▸ oldMember, rewritten ▸ matched⟩
  · rintro (⟨member, differ⟩ | ⟨old, member, matched, rfl⟩)
    · exact List.mem_map.mpr ⟨row, member, if_neg differ⟩
    · exact List.mem_map.mpr ⟨old, member, if_pos matched⟩

/-- An update of an absent key changes nothing. -/
theorem update_of_absent {id : κ} {rows : List ρ} (absent : ∀ row ∈ rows, key row ≠ id)
    (change : ρ → ρ) : update key id change rows = rows := by
  calc
    update key id change rows = rows.map fun row => row :=
      List.map_congr_left fun row member => if_neg (absent row member)
    _ = rows := List.map_id' rows

/-- An update that keeps keys keeps the list of keys. -/
theorem map_key_update (key : ρ → κ) (id : κ) (change : ρ → ρ)
    (keeps : ∀ row, key row = id → key (change row) = key row) (rows : List ρ) :
    (update key id change rows).map key = rows.map key := by
  simp only [update, List.map_map]
  refine List.map_congr_left fun row _ => ?_
  by_cases matched : key row = id
  · simpa [matched] using keeps row matched
  · simp [matched]

theorem lookup_update_self (key : ρ → κ) (id : κ) (change : ρ → ρ)
    (keeps : ∀ row, key (change row) = key row) (rows : List ρ) :
    lookup key id (update key id change rows) = (lookup key id rows).map change := by
  induction rows with
  | nil => simp [lookup, update]
  | cons first rest inductionHypothesis =>
      by_cases matched : key first = id
      · simp [lookup, update, matched, keeps]
      · simpa [lookup, update, List.find?_cons, matched] using inductionHypothesis

theorem lookup_update_other (key : ρ → κ) {id other : κ} (differ : other ≠ id)
    (change : ρ → ρ) (keeps : ∀ row, key (change row) = key row) (rows : List ρ) :
    lookup key other (update key id change rows) = lookup key other rows := by
  induction rows with
  | nil => simp [lookup, update]
  | cons first rest inductionHypothesis =>
      by_cases matched : key first = id
      · have mismatch : key first ≠ other := fun same => differ (same.symm.trans matched)
        simpa [lookup, update, List.find?_cons, matched, keeps, differ.symm, mismatch]
          using inductionHypothesis
      · by_cases found : key first = other
        · simp [lookup, update, found, differ]
        · simpa [lookup, update, List.find?_cons, matched, found] using inductionHypothesis

/-- A row found in a table is found in every longer one. -/
theorem lookup_append_of_some {id : κ} {rows : List ρ} {row : ρ}
    (found : lookup key id rows = some row) (more : List ρ) :
    lookup key id (rows ++ more) = some row := by
  unfold lookup at found ⊢
  rw [List.find?_append, found, Option.some_or]

theorem lookup_append_of_none {id : κ} {rows : List ρ} (absent : lookup key id rows = none)
    (more : List ρ) : lookup key id (rows ++ more) = lookup key id more := by
  unfold lookup at absent ⊢
  rw [List.find?_append, absent, Option.none_or]

omit [DecidableEq κ] in
/-- Rows that are kept under their keys keep a sublist of the keys. -/
theorem filterMap_keys_sublist {σ : Type u} {change : ρ → Option σ} {key : ρ → κ} {newKey : σ → κ}
    (keeps : ∀ old new, change old = some new → newKey new = key old) (rows : List ρ) :
    ((rows.filterMap change).map newKey).Sublist (rows.map key) := by
  induction rows with
  | nil => exact List.Sublist.slnil
  | cons row rest inductionHypothesis =>
      cases changed : change row with
      | none =>
          rw [List.filterMap_cons_none changed]
          exact inductionHypothesis.cons _
      | some updated =>
          rw [List.filterMap_cons_some changed, List.map_cons, List.map_cons,
            keeps row updated changed]
          exact inductionHypothesis.cons_cons _

/-- An update relates every old row to the new row in its place. -/
theorem forall₂_update {R : ρ → ρ → Prop} {id : κ} {change : ρ → ρ} {rows : List ρ}
    (kept : ∀ row ∈ rows, R row row)
    (changed : ∀ row ∈ rows, key row = id → R row (change row)) :
    List.Forall₂ R rows (update key id change rows) := by
  induction rows with
  | nil => exact .nil
  | cons first rest inductionHypothesis =>
      refine .cons ?_ (inductionHypothesis ?_ ?_)
      · by_cases matched : key first = id
        · simpa only [matched, if_true] using changed first (by simp) matched
        · simpa only [matched, if_false] using kept first (by simp)
      · exact fun row member => kept row (by simp [member])
      · exact fun row member => changed row (by simp [member])

/-- Rows related twice in a row are related by a transitive relation. -/
theorem forall₂_trans {R : ρ → ρ → Prop}
    (transitive : ∀ first second third, R first second → R second third → R first third)
    {first second third : List ρ} (earlier : List.Forall₂ R first second)
    (later : List.Forall₂ R second third) : List.Forall₂ R first third := by
  induction earlier generalizing third with
  | nil => exact later
  | cons head tail inductionHypothesis =>
      cases later with
      | cons nextHead nextTail =>
          exact .cons (transitive _ _ _ head nextHead) (inductionHypothesis nextTail)

/-- A row of the right list has its partner in the left one. -/
theorem forall₂_mem_right {σ : Type w} {R : ρ → σ → Prop} {before : List ρ} {after : List σ}
    (related : List.Forall₂ R before after) {row : σ} (member : row ∈ after) :
    ∃ old ∈ before, R old row := by
  induction related with
  | nil => simp at member
  | @cons first second before after head tail inductionHypothesis =>
      rcases List.mem_cons.mp member with rfl | member
      · exact ⟨first, by simp, head⟩
      · obtain ⟨old, oldMember, step⟩ := inductionHypothesis member
        exact ⟨old, by simp [oldMember], step⟩

/-- A row of the left list has its partner in the right one. -/
theorem forall₂_mem_left {R : ρ → ρ → Prop} {before after : List ρ}
    (related : List.Forall₂ R before after) {row : ρ} (member : row ∈ before) :
    ∃ new ∈ after, R row new := by
  induction related with
  | nil => simp at member
  | @cons first second before after head tail inductionHypothesis =>
      rcases List.mem_cons.mp member with rfl | member
      · exact ⟨second, by simp, head⟩
      · obtain ⟨new, newMember, step⟩ := inductionHypothesis member
        exact ⟨new, by simp [newMember], step⟩

end Table
