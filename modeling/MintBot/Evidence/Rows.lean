import MintBot.Evidence.Book

/-!
# Rows behind a snapshot

Every record of Ethereum in a snapshot stands for the row that was checked last among those of
its id.  These rows agree on the check time, and a decision is the last of them.
-/

namespace MintBot.Evidence

open Fallible Newest

namespace EvidenceStore

/-- The row that gives the state of a record. -/
def lastRow (store : EvidenceStore) (id : String) : Option ChainVerificationRow :=
  newest ChainVerificationRow.checkedAt (fun row => row.evidenceId = id) store.verifications

theorem mem_readChainEvidence {store : EvidenceStore} {shown : ChainEvidenceRecord} :
    shown ∈ store.readChainEvidence ↔
      ∃ row, store.lastRow shown.id = some row ∧ store.readRow row = shown := by
  unfold readChainEvidence
  rw [OrderedMap.mem_values_foldl_set ChainVerificationRow.evidenceId store.readRow]
  constructor
  · rintro ⟨id, row, last, rfl⟩
    obtain rfl : row.evidenceId = id := by simpa using List.find?_some last
    exact ⟨row, last, rfl⟩
  · rintro ⟨row, last, shows⟩
    exact ⟨shown.id, row, last, shows⟩

variable {store : EvidenceStore} {row : ChainVerificationRow} {id : String}

theorem lastRow_mem (last : store.lastRow id = some row) :
    row ∈ store.verifications ∧ row.evidenceId = id := by
  obtain ⟨member, ofId⟩ := newest_mem last
  exact ⟨member, by simpa using ofId⟩

/-- A snapshot shows one record for an id. -/
theorem readChainEvidence_unique {shown other : ChainEvidenceRecord}
    (member : shown ∈ store.readChainEvidence) (otherMember : other ∈ store.readChainEvidence)
    (same : other.id = shown.id) : other = shown := by
  obtain ⟨row, last, shows⟩ := mem_readChainEvidence.mp member
  obtain ⟨otherRow, otherLast, otherShows⟩ := mem_readChainEvidence.mp otherMember
  rw [same, last] at otherLast
  rw [← shows, ← otherShows, Option.some.inj otherLast]

theorem find_readChainEvidence {shown : ChainEvidenceRecord}
    (member : shown ∈ store.readChainEvidence) :
    (store.readChainEvidence.find? fun prior => prior.id = shown.id) = some shown := by
  cases search : store.readChainEvidence.find? fun prior => prior.id = shown.id with
  | none => simpa using List.find?_eq_none.mp search shown member
  | some found =>
      have same : found.id = shown.id := by simpa using List.find?_some search
      rw [readChainEvidence_unique member (List.mem_of_find?_eq_some search) same]

/-- Every row belongs to a record that is shown. -/
theorem shown_of_row (member : row ∈ store.verifications) :
    ∃ shown ∈ store.readChainEvidence, shown.id = row.evidenceId := by
  obtain ⟨last, found⟩ : ∃ last, store.lastRow row.evidenceId = some last :=
    newest_of_mem member (by simp)
  have ofId : last.evidenceId = row.evidenceId := by simpa using (newest_mem found).2
  refine ⟨store.readRow last, mem_readChainEvidence.mpr ⟨last, ?_, rfl⟩, ofId⟩
  change store.lastRow last.evidenceId = some last
  rw [ofId]
  exact found

/-! ## Sound rows -/

/-- The rows of Ethereum come from records, agree with the other rows of their id on chain and
check time, and a decision is the last row of its id. -/
structure Sound (store : EvidenceStore) : Prop where
  written : ∀ row ∈ store.verifications, row.chainId = .ethereum →
    row.evidence.backendEvidenceId = some row.evidenceId ∧
      row.evidence.status = some (store.readRow row).status
  agree : ∀ row ∈ store.verifications, ∀ other ∈ store.verifications, row.chainId = .ethereum →
    other.evidenceId = row.evidenceId →
      other.chainId = .ethereum ∧ other.checkedAt = row.checkedAt
  decided : ∀ row ∈ store.verifications, ethereumDecision row = true →
    store.lastRow row.evidenceId = some row

theorem sound_of_none (none : ∀ row ∈ store.verifications, row.chainId ≠ .ethereum) :
    store.Sound where
  written row member chain := absurd chain (none row member)
  agree row member _ _ chain := absurd chain (none row member)
  decided row member decision := by
    have chain : row.chainId = .ethereum := by
      simp only [ethereumDecision, decide_eq_true_eq] at decision
      exact decision.1
    exact absurd chain (none row member)

theorem readRow_pending : (store.readRow row).status ≠ .pending ↔ row.Decided := by
  unfold readRow ChainVerificationRow.Decided
  cases row.status <;> simp

/-- A shown record of Ethereum is decided when a decision on it is stored. -/
theorem Sound.shown_decided (sound : store.Sound) (member : row ∈ store.verifications)
    (decision : ethereumDecision row = true) {shown : ChainEvidenceRecord}
    (shownMember : shown ∈ store.readChainEvidence) (same : shown.id = row.evidenceId) :
    shown = store.readRow row := by
  obtain ⟨last, found, rfl⟩ := mem_readChainEvidence.mp shownMember
  rw [same, sound.decided row member decision] at found
  rw [Option.some.inj found]

/-- A shown record of Ethereum is stored in its present state, whatever its switch. -/
theorem Sound.stored (sound : store.Sound) {shown : ChainEvidenceRecord}
    (member : shown ∈ store.readChainEvidence) (chain : shown.chainId = .ethereum)
    {evidence : ChainEvidenceRecord} (sameChain : evidence.chainId = shown.chainId)
    (sameId : evidence.id = shown.id) (sameStatus : evidence.status = shown.status) :
    store.Stored evidence := by
  obtain ⟨row, last, rfl⟩ := mem_readChainEvidence.mp member
  obtain ⟨stored, _⟩ := lastRow_mem last
  obtain ⟨ofId, ofStatus⟩ := sound.written row stored chain
  exact ⟨row, stored, sameChain.symm, by rw [sameId, ofId]; rfl, by rw [sameStatus, ofStatus]⟩

/-! ## The record that is on -/

/-- The newest decision for Ethereum. -/
def lastDecision (store : EvidenceStore) : Option ChainVerificationRow :=
  newest ChainVerificationRow.checkedAt ethereumDecision store.verifications

theorem currentEthereumId_eq : store.currentEthereumId =
    store.lastDecision.map ChainVerificationRow.evidenceId := rfl

/-- A record of Ethereum is on when the chain is and the newest decision is the record's. -/
theorem readRow_executionEnabled (chain : row.chainId = .ethereum) :
    (store.readRow row).executionEnabled = true ↔
      store.executionEnabled .ethereum = some true ∧
        store.currentEthereumId = some row.evidenceId := by
  simp only [readRow, superseded, chain, decide_eq_true_eq, decide_eq_false_iff_not, ne_eq,
    Decidable.not_not]
  exact and_congr_right fun _ => eq_comm

theorem shown_executionEnabled {shown : ChainEvidenceRecord}
    (member : shown ∈ store.readChainEvidence) (chain : shown.chainId = .ethereum) :
    shown.executionEnabled = true ↔
      store.executionEnabled .ethereum = some true ∧ store.currentEthereumId = some shown.id := by
  obtain ⟨row, last, rfl⟩ := mem_readChainEvidence.mp member
  exact readRow_executionEnabled chain

end EvidenceStore

end MintBot.Evidence
