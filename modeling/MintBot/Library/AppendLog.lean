import Mathlib.Data.List.Infix
import Mathlib.Data.List.Nodup
import Mathlib.Logic.Function.Basic

/-!
# Append-only logs that may be rolled back

Rows are appended to a log under keys that are never used twice, not even after
the rows were rolled back.  The key of a row then determines the whole log up to
that row: a log that holds the last row of an earlier log starts with it.
-/

namespace AppendLog

universe u v

variable {ρ : Type u} {κ : Type v} {key : ρ → κ}

/-- `origin` gives, for the key of every row of the log, the log that the row was
appended to, with the row. -/
def Recorded (key : ρ → κ) (origin : κ → List ρ) (log : List ρ) : Prop :=
  ∀ before row, before ++ [row] <+: log → origin (key row) = before ++ [row]

variable {origin : κ → List ρ} {log : List ρ}

theorem Recorded.nil : Recorded key origin [] := by
  intro before row start
  have empty := List.prefix_nil.mp start
  simp at empty

/-- A log that was rolled back is still recorded. -/
theorem Recorded.start {shorter : List ρ} (recorded : Recorded key origin log)
    (start : shorter <+: log) : Recorded key origin shorter :=
  fun before row inside => recorded before row (inside.trans start)

/-- Every row of a log has its origin in it. -/
theorem Recorded.of_mem (recorded : Recorded key origin log) {row : ρ} (member : row ∈ log) :
    ∃ before, before ++ [row] <+: log ∧ origin (key row) = before ++ [row] := by
  obtain ⟨before, after, rfl⟩ := List.append_of_mem member
  have start : before ++ [row] <+: before ++ row :: after := ⟨after, by simp⟩
  exact ⟨before, start, recorded before row start⟩

/-- A log that holds the last row of another one starts with it. -/
theorem Recorded.prefix_of_last {seen : List ρ} (recorded : Recorded key origin log)
    (seenRecorded : Recorded key origin seen) {last row : ρ} (seenLast : seen.getLast? = some last)
    (member : row ∈ log) (same : key row = key last) : seen <+: log := by
  obtain ⟨earlier, rfl⟩ := List.getLast?_eq_some_iff.mp seenLast
  obtain ⟨before, start, rowOrigin⟩ := recorded.of_mem member
  have seenOrigin := seenRecorded earlier last (List.prefix_refl _)
  rw [← seenOrigin, ← same, rowOrigin]
  exact start

/-- Keys do not repeat within a log. -/
theorem Recorded.nodup (recorded : Recorded key origin log) : (log.map key).Nodup := by
  induction log using List.reverseRecOn with
  | nil => simp
  | append_singleton log row inductionHypothesis =>
      rw [List.map_append, List.map_singleton]
      have shorter := recorded.start (List.prefix_append log [row])
      refine List.nodup_append.mpr
        ⟨inductionHypothesis shorter, List.nodup_singleton _, ?_⟩
      intro old oldMember new newMember same
      obtain ⟨other, member, rfl⟩ := List.mem_map.mp oldMember
      rw [List.mem_singleton.mp newMember] at same
      obtain ⟨before, start, otherOrigin⟩ := shorter.of_mem member
      have rowOrigin := recorded log row (List.prefix_refl _)
      rw [← same, otherOrigin] at rowOrigin
      have shorterLength := start.length_le
      have sameLength := congrArg List.length rowOrigin
      simp only [List.length_append, List.length_singleton] at shorterLength sameLength
      omega

variable [DecidableEq κ]

/-- A row under an unused key extends the record. -/
theorem Recorded.append (recorded : Recorded key origin log) {row : ρ}
    (fresh : ∀ old ∈ log, key old ≠ key row) :
    Recorded key (Function.update origin (key row) (log ++ [row])) (log ++ [row]) := by
  intro before last start
  rcases List.prefix_concat_iff.mp start with same | inside
  · obtain ⟨rfl, rfl⟩ := List.append_inj' same rfl |>.imp id List.singleton_inj.mp
    rw [Function.update_self]
  · have member : last ∈ log := inside.subset (by simp)
    rw [Function.update_of_ne (fresh last member)]
    exact recorded before last inside

/-- Other logs without the new key stay recorded. -/
theorem Recorded.update (recorded : Recorded key origin log) {used : κ} (made : List ρ)
    (fresh : ∀ old ∈ log, key old ≠ used) :
    Recorded key (Function.update origin used made) log := by
  intro before row start
  rw [Function.update_of_ne (fresh row (start.subset (by simp)))]
  exact recorded before row start

end AppendLog
