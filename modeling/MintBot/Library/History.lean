import Mathlib.Data.List.Induction

/-!
# Entries and what came before them

A property of the entries of a log that may read the entries before each of them.
-/

namespace History

universe u

variable {α : Type u} {P : List α → α → Prop} {log : List α}

/-- Every entry has the property after the entries before it. -/
def Each (P : List α → α → Prop) (log : List α) : Prop :=
  ∀ before entry after, log = before ++ entry :: after → P before entry

theorem Each.nil : Each P [] := by
  intro before entry after same
  have member : entry ∈ ([] : List α) := by
    rw [same]
    simp
  exact nomatch member

/-- An entry is added behind the others. -/
theorem Each.concat (each : Each P log) {last : α} (holds : P log last) :
    Each P (log ++ [last]) := by
  intro before entry after same
  rcases List.eq_nil_or_concat after with rfl | ⟨init, final, rfl⟩
  · obtain ⟨rfl, sameEntry⟩ := List.append_inj' same rfl
    obtain rfl := List.singleton_inj.mp sameEntry
    exact holds
  · rw [List.concat_eq_append, ← List.cons_append, ← List.append_assoc] at same
    obtain ⟨rfl, -⟩ := List.append_inj' same rfl
    exact each before entry init rfl

/-- Entries are added behind the others, each with the property after those before it. -/
theorem Each.append (each : Each P log) {new : List α}
    (holds : ∀ before entry after, new = before ++ entry :: after → P (log ++ before) entry) :
    Each P (log ++ new) := by
  induction new using List.reverseRec with
  | nil => rwa [List.append_nil]
  | append_singleton init last inductionHypothesis =>
      rw [← List.append_assoc]
      refine Each.concat (inductionHypothesis ?_) (holds init last [] rfl)
      intro before entry after same
      refine holds before entry (after ++ [last]) ?_
      rw [same, List.append_assoc, List.cons_append]

end History
