import MintBot.Adapter.Reconcile

/-!
# Unique submissions

Stored attempts that describe one transaction are looked up once.  The
submissions kept for some attempts have distinct keys, are among them, and stand
for all of them.
-/

namespace MintBot

/-- The submissions kept for some attempts: one for each transaction. -/
structure UniqueOf (attempts unique : List AttemptRecord) : Prop where
  distinct : (unique.map submissionKey).Nodup
  known : ∀ attempt ∈ unique, attempt ∈ attempts
  covered : ∀ attempt ∈ attempts, ∃ other ∈ unique, submissionKey other = submissionKey attempt

theorem UniqueOf.add {attempts unique : List AttemptRecord} (kept : UniqueOf attempts unique)
    (attempt : AttemptRecord) : UniqueOf (attempts ++ [attempt]) (addSubmission unique attempt) := by
  unfold addSubmission
  cases found : Table.lookup submissionKey (submissionKey attempt) unique with
  | none =>
      have new := Table.lookup_eq_none.mp found
      constructor
      · rw [List.map_append, List.nodup_append]
        refine ⟨kept.distinct, List.nodup_singleton _, ?_⟩
        rintro key keyMember other otherMember rfl
        obtain ⟨row, rowMember, named⟩ := List.mem_map.mp keyMember
        rw [List.map_singleton, List.mem_singleton] at otherMember
        exact new row rowMember (named.trans otherMember)
      · intro other member
        rcases List.mem_append.mp member with old | added
        · exact List.mem_append_left _ (kept.known other old)
        · exact List.mem_append_right _ added
      · intro other member
        rcases List.mem_append.mp member with old | added
        · obtain ⟨row, rowMember, same⟩ := kept.covered other old
          exact ⟨row, List.mem_append_left _ rowMember, same⟩
        · exact ⟨other, List.mem_append_right _ added, rfl⟩
  | some existing =>
      obtain ⟨existingMember, sameKey⟩ := Table.lookup_eq_some found
      by_cases answered : existing.state = .signed ∧ attempt.state ≠ .signed
      · simp only [if_pos answered]
        have keys : (Table.update submissionKey (submissionKey attempt) (fun _ => attempt)
            unique).map submissionKey = unique.map submissionKey :=
          Table.map_key_update submissionKey _ _ (fun _ matched => matched.symm) unique
        constructor
        · rw [keys]
          exact kept.distinct
        · intro other member
          rcases Table.mem_update.mp member with ⟨old, -⟩ | ⟨old, -, -, rfl⟩
          · exact List.mem_append_left _ (kept.known other old)
          · simp
        · intro other member
          have covered : ∃ row ∈ unique, submissionKey row = submissionKey other := by
            rcases List.mem_append.mp member with old | added
            · exact kept.covered other old
            · rw [List.mem_singleton.mp added]
              exact ⟨existing, existingMember, sameKey⟩
          obtain ⟨row, rowMember, same⟩ := covered
          have keyMember := List.mem_map_of_mem (f := submissionKey) rowMember
          rw [← keys] at keyMember
          obtain ⟨updated, updatedMember, named⟩ := List.mem_map.mp keyMember
          exact ⟨updated, updatedMember, named.trans same⟩
      · simp only [if_neg answered]
        constructor
        · exact kept.distinct
        · exact fun other member => List.mem_append_left _ (kept.known other member)
        · intro other member
          rcases List.mem_append.mp member with old | added
          · exact kept.covered other old
          · rw [List.mem_singleton.mp added]
            exact ⟨existing, existingMember, sameKey⟩

theorem uniqueSubmittedAttempts_unique (attempts : List AttemptRecord) :
    UniqueOf attempts (uniqueSubmittedAttempts attempts) := by
  have fold : ∀ rest seen unique, UniqueOf seen unique →
      UniqueOf (seen ++ rest) (rest.foldl addSubmission unique) := by
    intro rest
    induction rest with
    | nil =>
        intro seen unique kept
        simpa using kept
    | cons attempt rest inductionHypothesis =>
        intro seen unique kept
        have added := inductionHypothesis _ _ (kept.add attempt)
        rwa [List.append_assoc, List.singleton_append] at added
  exact fold attempts [] [] ⟨List.nodup_nil, by simp, by simp⟩

/-- Unique submissions keep distinct ids. -/
theorem UniqueOf.ids {attempts unique : List AttemptRecord} (kept : UniqueOf attempts unique)
    (ids : (attempts.map AttemptRecord.id).Nodup) : (unique.map AttemptRecord.id).Nodup := by
  refine kept.distinct.of_map.map_on ?_
  intro first firstMember second secondMember same
  exact List.inj_on_of_nodup_map ids (kept.known first firstMember) (kept.known second secondMember)
    same

theorem toLowerCase_eq_empty {text : String} : toLowerCase text = "" ↔ text = "" := by
  constructor
  · intro empty
    have characters := congrArg String.toList empty
    simpa [toLowerCase] using characters
  · rintro rfl
    rfl

/-- A submitted attempt has a submitted representative. -/
theorem submitted_of_key {attempt other : AttemptRecord}
    (same : submissionKey other = submissionKey attempt) (submitted : attempt.Submitted) :
    other.Submitted ∧ other.executionId = attempt.executionId := by
  have execution := congrArg SubmissionKey.executionId same
  have nonce := congrArg SubmissionKey.nonce same
  have hash := congrArg SubmissionKey.hash same
  simp only [submissionKey] at execution nonce hash
  obtain ⟨hasHash, hasNonce⟩ := submitted
  refine ⟨⟨?_, nonce ▸ hasNonce⟩, execution⟩
  cases attemptHash : attempt.hash with
  | none => simp [attemptHash] at hasHash
  | some text =>
      rw [attemptHash, Option.map_some] at hash
      obtain ⟨otherText, otherHash, lower⟩ := Option.map_eq_some_iff.mp hash
      rw [attemptHash, Option.getD_some] at hasHash
      rw [otherHash, Option.getD_some]
      intro empty
      rw [empty] at lower
      exact hasHash (toLowerCase_eq_empty.mp lower.symm)

end MintBot
