import MintBot.Evidence.Rows

/-!
# Writing evidence of Ethereum

A call changes at most one record of Ethereum in a way that is stored, as one further row.  The
rows stay sound when no decision on that record is stored yet and the rows of its id have its
check time.
-/

namespace MintBot.Evidence

open Fallible Newest

namespace EvidenceStore

variable {outside : Outside} {store next : EvidenceStore} {evidence : ChainEvidenceRecord}

/-- The store with a further row for a record of Ethereum. -/
def write (outside : Outside) (evidence : ChainEvidenceRecord) (store : EvidenceStore) :
    EvidenceStore :=
  { store with
    verifications := store.verifications ++ [evidenceRow outside evidence]
    executionEnabled := fun chainId =>
      if chainId = .ethereum then some (decide (evidence.status = .accepted) && evidence.executionEnabled)
      else store.executionEnabled chainId }

theorem recordChainVerification_effect (chain : evidence.chainId = .ethereum)
    (recorded : recordChainVerification outside evidence store = .ok next) :
    next = store.write outside evidence := by
  simp only [recordChainVerification, bind_eq_ok, refuse_eq_ok, require_eq_ok, pure_eq_ok,
    chain] at recorded
  obtain ⟨_, _, _, -, _, -, _, -, _, -, _, -, _, -, _, -, rfl⟩ := recorded
  simp [write]

/-- Storing a record either finds it stored or writes it. -/
theorem persistChainEvidence_effect {prior : Option ChainEvidenceRecord}
    (persisted : persistChainEvidence outside prior evidence store = .ok next) :
    (next = store ∧ (prior = some evidence ∨ store.Stored evidence)) ∨
      (¬ store.Stored evidence ∧
        recordChainVerification outside evidence store = .ok next) := by
  unfold persistChainEvidence at persisted
  split at persisted
  · rename_i same
    simp only [pure_eq_ok] at persisted
    exact .inl ⟨persisted.symm, .inl same⟩
  · simp only [bind_eq_ok, require_eq_ok] at persisted
    obtain ⟨_, _, persisted⟩ := persisted
    split at persisted
    · rename_i stored
      simp only [pure_eq_ok] at persisted
      exact .inl ⟨persisted.symm, .inr stored⟩
    · rename_i unstored
      simp only [bind_eq_ok, refuse_eq_ok] at persisted
      obtain ⟨_, -, recorded⟩ := persisted
      exact .inr ⟨unstored, recorded⟩

/-- Nothing is written for the record. -/
def Quiet (store : EvidenceStore) (previous : List ChainEvidenceRecord)
    (evidence : ChainEvidenceRecord) : Prop :=
  (previous.find? fun prior => prior.id = evidence.id) = some evidence ∨ store.Stored evidence

theorem stored_write (written : ChainEvidenceRecord) (stored : store.Stored evidence) :
    (store.write outside written).Stored evidence := by
  obtain ⟨row, member, same⟩ := stored
  exact ⟨row, List.mem_append_left _ member, same⟩

theorem stored_write_self : (store.write outside evidence).Stored evidence :=
  ⟨evidenceRow outside evidence, List.mem_append_right _ (List.mem_singleton.mpr rfl), rfl, rfl,
    rfl⟩

theorem persistChainEvidence_quiet {previous : List ChainEvidenceRecord}
    (quiet : store.Quiet previous evidence)
    (persisted : persistChainEvidence outside
      (previous.find? fun prior => prior.id = evidence.id) evidence store = .ok next) :
    next = store := by
  rcases persistChainEvidence_effect persisted with ⟨unchanged, _⟩ | ⟨unstored, _⟩
  · exact unchanged
  · rcases quiet with same | stored
    · rw [persistChainEvidence, if_pos same] at persisted
      exact (Except.ok.inj persisted).symm
    · exact absurd stored unstored

/-- Quiet records leave the store as it is. -/
theorem persistDelta_quiet {previous records : List ChainEvidenceRecord}
    (quiet : ∀ record ∈ records, store.Quiet previous record)
    (persisted : persistDelta outside previous records store = .ok next) : next = store := by
  induction records with
  | nil => exact (Except.ok.inj persisted).symm
  | cons record rest inductionHypothesis =>
      obtain ⟨middle, first, persistedRest⟩ := bind_eq_ok.mp persisted
      obtain rfl := persistChainEvidence_quiet (quiet record (by simp)) first
      exact inductionHypothesis (fun other member => quiet other (by simp [member]))
        persistedRest

/-- When one record of Ethereum is the only one that is not quiet, exactly it is written. -/
theorem persistDelta_write {previous records : List ChainEvidenceRecord}
    (quiet : ∀ record ∈ records, record = evidence ∨ store.Quiet previous record)
    (member : evidence ∈ records) (chain : evidence.chainId = .ethereum)
    (loud : ¬ store.Quiet previous evidence)
    (persisted : persistDelta outside previous records store = .ok next) :
    next = store.write outside evidence := by
  induction records with
  | nil => cases member
  | cons record rest inductionHypothesis =>
      obtain ⟨middle, first, persistedRest⟩ := bind_eq_ok.mp persisted
      have quietRest : ∀ other ∈ rest, other = evidence ∨ store.Quiet previous other :=
        fun other inside => quiet other (List.mem_cons_of_mem _ inside)
      by_cases isTarget : record = evidence
      · subst isTarget
        have written : middle = store.write outside record := by
          rcases persistChainEvidence_effect first with ⟨_, quietNow⟩ | ⟨_, recorded⟩
          · exact absurd quietNow loud
          · exact recordChainVerification_effect chain recorded
        subst written
        apply persistDelta_quiet _ persistedRest
        intro other inside
        rcases quietRest other inside with rfl | same | stored
        · exact .inr stored_write_self
        · exact .inl same
        · exact .inr (stored_write record stored)
      · obtain rfl := persistChainEvidence_quiet
          ((quiet record (by simp)).resolve_left isTarget) first
        exact inductionHypothesis quietRest
          ((List.mem_cons.mp member).resolve_left (Ne.symm isTarget)) persistedRest

/-! ## What a written row shows -/

variable (outside evidence)

theorem evidenceRow_evidenceId : (evidenceRow outside evidence).evidenceId = evidence.id := rfl

theorem evidenceRow_decided :
    (evidenceRow outside evidence).Decided ↔ evidence.status ≠ .pending := by
  unfold evidenceRow ChainVerificationRow.Decided
  cases evidence.status <;> simp

theorem readRow_evidenceRow_status :
    (store.readRow (evidenceRow outside evidence)).status = evidence.status := by
  unfold evidenceRow readRow
  cases evidence.status <;> rfl

variable {outside evidence}

/-- The rows of the id, if there are any, are undecided ones of Ethereum with the check time of
the record. -/
structure Undecided (store : EvidenceStore) (evidence : ChainEvidenceRecord) : Prop where
  ethereum : evidence.chainId = .ethereum
  rows : ∀ row ∈ store.verifications, row.evidenceId = evidence.id →
    row.chainId = .ethereum ∧ row.checkedAt = evidence.checkedAt ∧ ¬ row.Decided

theorem Undecided.lastRow_write (undecided : store.Undecided evidence) :
    (store.write outside evidence).lastRow evidence.id = some (evidenceRow outside evidence) := by
  apply newest_concat_of_le (by simp [evidenceRow_evidenceId])
  intro row member ofId
  have agreed := undecided.rows row member (by simpa using ofId)
  exact le_of_eq agreed.2.1

theorem lastRow_write_other {id : String} (other : id ≠ evidence.id) :
    (store.write outside evidence).lastRow id = store.lastRow id :=
  newest_concat_other (decide_eq_false (Ne.symm other))

theorem Sound.write (sound : store.Sound) (undecided : store.Undecided evidence) :
    (store.write outside evidence).Sound where
  written row member chain := by
    rcases List.mem_append.mp member with before | new
    · exact sound.written row before chain
    · obtain rfl := List.mem_singleton.mp new
      refine ⟨rfl, congrArg some ?_⟩
      exact (readRow_evidenceRow_status outside evidence).symm
  agree row member other otherMember chain same := by
    rcases List.mem_append.mp member with before | new
    · rcases List.mem_append.mp otherMember with otherBefore | otherNew
      · exact sound.agree row before other otherBefore chain same
      · obtain rfl := List.mem_singleton.mp otherNew
        have agreed := undecided.rows row before same.symm
        exact ⟨undecided.ethereum, agreed.2.1.symm⟩
    · obtain rfl := List.mem_singleton.mp new
      rcases List.mem_append.mp otherMember with otherBefore | otherNew
      · have agreed := undecided.rows other otherBefore same
        exact ⟨agreed.1, agreed.2.1⟩
      · rw [List.mem_singleton.mp otherNew]
        exact ⟨chain, rfl⟩
  decided row member decision := by
    rcases List.mem_append.mp member with before | new
    · have isDecided : row.chainId = .ethereum ∧ row.Decided := by
        simpa [ethereumDecision] using decision
      have otherId : row.evidenceId ≠ evidence.id := fun same =>
        (undecided.rows row before same).2.2 isDecided.2
      rw [lastRow_write_other otherId]
      exact sound.decided row before decision
    · obtain rfl := List.mem_singleton.mp new
      exact undecided.lastRow_write

/-- A row that decides nothing leaves the newest decision. -/
theorem lastDecision_write_pending (pending : evidence.status = .pending) :
    (store.write outside evidence).lastDecision = store.lastDecision := by
  apply newest_concat_other
  simp [ethereumDecision, evidenceRow_decided, pending]

/-- A decision is the newest one exactly when no decision of Ethereum was checked later. -/
theorem lastDecision_write (chain : evidence.chainId = .ethereum)
    (decided : evidence.status ≠ .pending) :
    (store.write outside evidence).lastDecision =
      if ∀ row ∈ store.lastDecision, row.checkedAt ≤ evidence.checkedAt then
        some (evidenceRow outside evidence)
      else store.lastDecision := by
  have decision : ethereumDecision (evidenceRow outside evidence) = true :=
    decide_eq_true ⟨chain, (evidenceRow_decided outside evidence).mpr decided⟩
  cases before : store.lastDecision with
  | none =>
      rw [if_pos (by simp)]
      apply newest_concat_of_le decision
      intro other member counts
      rw [newest_eq_none.mp before other member] at counts
      cases counts
  | some found =>
      by_cases notLater : found.checkedAt ≤ evidence.checkedAt
      · rw [if_pos (by simpa using notLater)]
        apply newest_concat_of_le decision
        intro other member counts
        exact (le_newest before other member counts).trans notLater
      · rw [if_neg (by simpa using notLater)]
        exact newest_concat_of_lt before (not_le.mp notLater)

end EvidenceStore

end MintBot.Evidence
