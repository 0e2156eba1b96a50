import Mathlib.Data.List.Induction
import Mathlib.Data.List.Sort
import Mathlib.Data.List.TakeWhile
import Mathlib.Tactic.Common

/-!
# The newest row of an append-only table

A table is read in the order of a key, rows with one key in the order they were appended.  Its
newest row of a kind is the last one in that order: an appended row of the kind becomes it
unless the newest one so far has a later key.
-/

namespace Newest

universe u v

variable {α : Type u} {κ : Type v} [LinearOrder κ] (key : α → κ)

/-- `ORDER BY key, rowid`. -/
def inOrder (rows : List α) : List α :=
  rows.insertionSort fun earlier later => key earlier ≤ key later

/-- A row behind all rows with a key that is not later. -/
def place (row : α) (rows : List α) : List α :=
  rows.takeWhile (fun other => key other ≤ key row) ++
    row :: rows.dropWhile fun other => key other ≤ key row

theorem place_cons (row other : α) (rows : List α) :
    place key row (other :: rows) =
      if key other ≤ key row then other :: place key row rows else row :: other :: rows := by
  unfold place
  by_cases before : key other ≤ key row
  · simp [before]
  · simp [before]

/-- Insertion in front of the first row that is not before. -/
def insert (row : α) (rows : List α) : List α :=
  rows.orderedInsert (fun earlier later => key earlier ≤ key later) row

theorem insert_cons (row other : α) (rows : List α) :
    insert key row (other :: rows) =
      if key row ≤ key other then row :: other :: rows else other :: insert key row rows :=
  rfl

/-- Placing a row and inserting another commute. -/
theorem insert_place (first row : α) (rows : List α) :
    insert key first (place key row rows) = place key row (insert key first rows) := by
  induction rows with
  | nil =>
      by_cases before : key first ≤ key row
      · simp [place, insert, before]
      · simp [place, insert, before]
  | cons other rest inductionHypothesis =>
      by_cases otherBefore : key other ≤ key row
      · rw [place_cons, if_pos otherBefore, insert_cons, insert_cons]
        by_cases firstBefore : key first ≤ key other
        · rw [if_pos firstBefore, if_pos firstBefore, place_cons,
            if_pos (firstBefore.trans otherBefore), place_cons, if_pos otherBefore]
        · rw [if_neg firstBefore, if_neg firstBefore, inductionHypothesis, place_cons,
            if_pos otherBefore]
      · rw [place_cons, if_neg otherBefore, insert_cons, insert_cons]
        by_cases firstBefore : key first ≤ key other
        · rw [if_pos firstBefore, place_cons, place_cons, if_neg otherBefore]
        · have firstRow : ¬ key first ≤ key row := fun within =>
            firstBefore (within.trans (not_le.mp otherBefore).le)
          rw [if_neg firstRow, if_neg firstBefore, place_cons, if_neg otherBefore]

theorem inOrder_concat (rows : List α) (row : α) :
    inOrder key (rows ++ [row]) = place key row (inOrder key rows) := by
  unfold inOrder
  induction rows with
  | nil => rfl
  | cons first rest inductionHypothesis =>
      rw [List.cons_append, List.insertionSort_cons, List.insertionSort_cons,
        inductionHypothesis]
      exact insert_place key first row _

/-- The last row of a kind in the order of the key. -/
def newest (kind : α → Bool) (rows : List α) : Option α :=
  (inOrder key rows).reverse.find? kind

variable {key} {kind : α → Bool} {rows : List α} {row : α}

@[simp]
theorem newest_nil : newest key kind [] = none := rfl

theorem mem_inOrder : row ∈ inOrder key rows ↔ row ∈ rows :=
  (List.perm_insertionSort _ _).mem_iff

theorem newest_mem (found : newest key kind rows = some row) : row ∈ rows ∧ kind row = true :=
  ⟨mem_inOrder.mp (List.mem_reverse.mp (List.mem_of_find?_eq_some found)),
    List.find?_some found⟩

theorem newest_eq_none : newest key kind rows = none ↔ ∀ row ∈ rows, kind row = false := by
  simp [newest, mem_inOrder]

/-- A row is the newest of its kind, or there is one. -/
theorem newest_of_mem (member : row ∈ rows) (ofKind : kind row = true) :
    ∃ found, newest key kind rows = some found := by
  cases search : newest key kind rows with
  | some found => exact ⟨found, rfl⟩
  | none =>
      have missing := newest_eq_none.mp search row member
      rw [ofKind] at missing
      cases missing

/-- Behind the rows that are not later stand only later ones. -/
theorem dropWhile_later (rows : List α) (row : α) :
    ∀ other ∈ (inOrder key rows).dropWhile (fun other => key other ≤ key row),
      key row < key other := by
  have sorted : (inOrder key rows).Pairwise fun earlier later => key earlier ≤ key later :=
    List.pairwise_insertionSort _ _
  intro other member
  cases behind : (inOrder key rows).dropWhile (fun other => key other ≤ key row) with
  | nil =>
      rw [behind] at member
      cases member
  | cons first rest =>
      have later : ¬ key first ≤ key row := by
        have head := List.head?_dropWhile_not (fun other => decide (key other ≤ key row))
          (inOrder key rows)
        rw [behind] at head
        simpa using head
      have ordered := sorted.sublist
        (List.dropWhile_sublist fun other => decide (key other ≤ key row))
      rw [behind] at ordered member
      rcases List.mem_cons.mp member with rfl | inside
      · exact not_le.mp later
      · exact lt_of_lt_of_le (not_le.mp later) (List.rel_of_pairwise_cons ordered inside)

/-- The newest row, from the rows behind a place and those before it. -/
theorem newest_split (kind : α → Bool) (rows : List α) (row : α) :
    newest key kind rows =
      (((inOrder key rows).dropWhile fun other => key other ≤ key row).reverse.find? kind).or
        (((inOrder key rows).takeWhile fun other => key other ≤ key row).reverse.find? kind) := by
  rw [← List.find?_append, ← List.reverse_append, List.takeWhile_append_dropWhile, newest]

theorem newest_concat (kind : α → Bool) (rows : List α) (row : α) :
    newest key kind (rows ++ [row]) =
      (((inOrder key rows).dropWhile fun other => key other ≤ key row).reverse.find? kind).or
        (if kind row then some row else
          ((inOrder key rows).takeWhile fun other => key other ≤ key row).reverse.find? kind) := by
  rw [newest, inOrder_concat, place, List.reverse_append, List.reverse_cons, List.append_assoc,
    List.find?_append, List.singleton_append, List.find?_cons]
  cases kind row <;> rfl

/-- An appended row of another kind does not count. -/
theorem newest_concat_other (other : kind row = false) :
    newest key kind (rows ++ [row]) = newest key kind rows := by
  rw [newest_concat, other, newest_split kind rows row]
  rfl

/-- An appended row of the kind is the newest when none of the kind is later. -/
theorem newest_concat_of_le (ofKind : kind row = true)
    (notLater : ∀ other ∈ rows, kind other = true → key other ≤ key row) :
    newest key kind (rows ++ [row]) = some row := by
  have none_behind : ((inOrder key rows).dropWhile
      fun other => key other ≤ key row).reverse.find? kind = none := by
    rw [List.find?_eq_none]
    intro other member counts
    have inside := List.mem_reverse.mp member
    have later := dropWhile_later rows row other inside
    have stored := mem_inOrder.mp ((List.dropWhile_sublist _).mem inside)
    exact absurd later (not_lt.mpr (notLater other stored counts))
  rw [newest_concat, none_behind, if_pos ofKind, Option.none_or]

/-- An appended row does not count while one of the kind is later. -/
theorem newest_concat_of_lt {found : α} (search : newest key kind rows = some found)
    (later : key row < key found) :
    newest key kind (rows ++ [row]) = some found := by
  rw [newest_split kind rows row] at search
  rw [newest_concat]
  cases behind : ((inOrder key rows).dropWhile
      fun other => key other ≤ key row).reverse.find? kind with
  | some last =>
      rw [behind, Option.some_or] at search
      rw [Option.some_or, search]
  | none =>
      rw [behind, Option.none_or] at search
      have inside := List.mem_reverse.mp (List.mem_of_find?_eq_some search)
      have before := List.mem_takeWhile_imp inside
      exact absurd later (not_lt.mpr (by simpa using before))

/-- No row of the kind is later than the newest one. -/
theorem le_newest {found : α} (search : newest key kind rows = some found) :
    ∀ other ∈ rows, kind other = true → key other ≤ key found := by
  induction rows using List.reverseRec generalizing found with
  | nil => simp
  | append_singleton rest last inductionHypothesis =>
      intro other member counts
      by_cases ofKind : kind last = true
      · cases before : newest key kind rest with
        | none =>
            have missing := newest_eq_none.mp before
            have chosen : newest key kind (rest ++ [last]) = some last := by
              apply newest_concat_of_le ofKind
              intro row inside counts
              simp [missing row inside] at counts
            obtain rfl := Option.some.inj (chosen.symm.trans search)
            rcases List.mem_append.mp member with inside | single
            · simp [missing other inside] at counts
            · rw [List.mem_singleton.mp single]
        | some old =>
            by_cases later : key last < key old
            · obtain rfl := Option.some.inj ((newest_concat_of_lt before later).symm.trans search)
              rcases List.mem_append.mp member with inside | single
              · exact inductionHypothesis before other inside counts
              · rw [List.mem_singleton.mp single]
                exact later.le
            · have notLater : ∀ row ∈ rest, kind row = true → key row ≤ key last :=
                fun row inside counts =>
                  (inductionHypothesis before row inside counts).trans (not_lt.mp later)
              obtain rfl := Option.some.inj ((newest_concat_of_le ofKind notLater).symm.trans search)
              rcases List.mem_append.mp member with inside | single
              · exact notLater other inside counts
              · rw [List.mem_singleton.mp single]
      · rw [newest_concat_other (Bool.eq_false_of_not_eq_true ofKind)] at search
        rcases List.mem_append.mp member with inside | single
        · exact inductionHypothesis search other inside counts
        · rw [List.mem_singleton.mp single] at counts
          exact absurd counts ofKind

end Newest
