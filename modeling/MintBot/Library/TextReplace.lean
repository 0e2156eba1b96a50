import Mathlib.Data.List.Basic
import Mathlib.Tactic.Common

/-!
# Replacing every match in a text

A global replacement goes through the text from the left.  Where a match begins it
writes the replacement and goes on behind the match; any other letter is copied.
The text and its replacement therefore consist of the same pieces, and they differ
in the matches only.
-/

namespace TextReplace

variable {α β : Type*}

/-- Copies and replaces, after letters that belong to the last match. -/
def replaceFrom (matchAt : List α → Option β) (source replacement : β → List α) :
    Nat → List α → List α
  | _, [] => []
  | skipped + 1, _ :: text => replaceFrom matchAt source replacement skipped text
  | 0, letter :: text =>
      match matchAt (letter :: text) with
      | some found =>
          replacement found ++
            replaceFrom matchAt source replacement ((source found).length - 1) text
      | none => letter :: replaceFrom matchAt source replacement 0 text

/-- The text with every match replaced. -/
def replaceAll (matchAt : List α → Option β) (source replacement : β → List α) (text : List α) :
    List α :=
  replaceFrom matchAt source replacement 0 text

/-- Letters that are copied and matches, one after the other. -/
def join (written : β → List α) (pieces : List (α ⊕ β)) : List α :=
  pieces.flatMap (Sum.elim (fun letter => [letter]) written)

@[simp]
theorem join_nil (written : β → List α) : join written [] = [] :=
  rfl

@[simp]
theorem join_letter (written : β → List α) (letter : α) (pieces : List (α ⊕ β)) :
    join written (.inl letter :: pieces) = letter :: join written pieces :=
  rfl

@[simp]
theorem join_found (written : β → List α) (found : β) (pieces : List (α ⊕ β)) :
    join written (.inr found :: pieces) = written found ++ join written pieces :=
  rfl

variable {matchAt : List α → Option β} {source : β → List α}

theorem replaceFrom_pieces (replacement : β → List α)
    (starts : ∀ text, ∀ found ∈ matchAt text, source found <+: text)
    (nonempty : ∀ found, source found ≠ []) (text : List α) (skipped : Nat) :
    ∃ pieces : List (α ⊕ β), text.drop skipped = join source pieces ∧
      replaceFrom matchAt source replacement skipped text = join replacement pieces ∧
      ∀ found, .inr found ∈ pieces → ∃ rest, found ∈ matchAt rest := by
  induction text generalizing skipped with
  | nil => exact ⟨[], by simp, by rw [replaceFrom, join_nil], nofun⟩
  | cons letter text inductionHypothesis =>
      cases skipped with
      | succ skipped => exact inductionHypothesis skipped
      | zero =>
          cases matched : matchAt (letter :: text) with
          | none =>
              obtain ⟨pieces, same, replaced, known⟩ := inductionHypothesis 0
              refine ⟨.inl letter :: pieces, ?_, ?_, ?_⟩
              · rw [join_letter, ← same]
                rfl
              · rw [replaceFrom, matched, join_letter, replaced]
              · exact fun found member => known found (by simpa using member)
          | some found =>
              obtain ⟨rest, whole⟩ := starts _ found matched
              cases begins : source found with
              | nil => exact absurd begins (nonempty found)
              | cons first tail =>
                  rw [begins, List.cons_append, List.cons.injEq] at whole
                  obtain ⟨rfl, rfl⟩ := whole
                  obtain ⟨pieces, same, replaced, known⟩ := inductionHypothesis tail.length
                  rw [List.drop_left] at same
                  refine ⟨.inr found :: pieces, ?_, ?_, ?_⟩
                  · rw [join_found, ← same, begins, List.drop_zero, List.cons_append]
                  · rw [replaceFrom, matched]
                    dsimp only
                    rw [begins, List.length_cons, Nat.add_sub_cancel, join_found, replaced]
                  · intro other member
                    rcases List.mem_cons.mp member with same | later
                    · exact ⟨_, Sum.inr.inj same ▸ matched⟩
                    · exact known other later

/-- The text and its replacement are the same pieces, with the matches written differently. -/
theorem replaceAll_pieces (replacement : β → List α)
    (starts : ∀ text, ∀ found ∈ matchAt text, source found <+: text)
    (nonempty : ∀ found, source found ≠ []) (text : List α) :
    ∃ pieces : List (α ⊕ β), text = join source pieces ∧
      replaceAll matchAt source replacement text = join replacement pieces ∧
      ∀ found, .inr found ∈ pieces → ∃ rest, found ∈ matchAt rest := by
  obtain ⟨pieces, same, others⟩ := replaceFrom_pieces replacement starts nonempty text 0
  exact ⟨pieces, same, others⟩

end TextReplace
