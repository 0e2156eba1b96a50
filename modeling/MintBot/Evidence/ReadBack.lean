import MintBot.Evidence.Writes

/-!
# Decisions read back

What each call leaves in the rows, and what the next snapshot makes of it.  A decision is read
back as it was made exactly when no decision of Ethereum was checked later, and a submission
leaves the other records alone exactly when none of Ethereum is on.
-/

namespace MintBot.Evidence

open Fallible Newest EvidenceStore

variable {outside : Outside} {store next : EvidenceStore}

/-! ## What a call writes -/

/-- The record of Ethereum that a call writes. -/
inductive Writes (outside : Outside) (store : EvidenceStore) : Call → ChainEvidenceRecord → Prop
  | submitted {record : ChainEvidenceRecord} (pending : record.status = .pending)
      (fresh : ∀ shown ∈ store.readChainEvidence, shown.id ≠ record.id) :
      Writes outside store (.recordChainEvidence record) record
  | accepted {verify : ChainEvidenceRecord → EvidenceApproval → Bool}
      {approval : EvidenceApproval} {record : ChainEvidenceRecord}
      (shown : record ∈ store.readChainEvidence) (pending : record.status = .pending) :
      Writes outside store (.acceptChainEvidence verify record.id approval)
        (accepting record.id approval .ethereum record)
  | revoked {phrase at_ id : String} {active : ChainEvidenceRecord}
      (shown : active ∈ store.readChainEvidence) (isActive : isActive active = true)
      (checked : active.checkedAt ≤ at_)
      (fresh : ∀ shown ∈ store.readChainEvidence, shown.id ≠ id) :
      Writes outside store (.revokeEthereumChainEvidence active.id phrase at_ id)
        (revocation outside active phrase at_ id)

/-- A call for Ethereum whose drawn id is fresh. -/
def ForEthereum (store : EvidenceStore) : Call → Prop
  | .ensureEthereumChainProfile => True
  | .recordChainEvidence record => record.chainId = .ethereum
  | .acceptChainEvidence _ id _ =>
      ∀ shown ∈ store.readChainEvidence, shown.id = id → shown.chainId = .ethereum
  | .revokeEthereumChainEvidence _ _ _ id => ∀ shown ∈ store.readChainEvidence, shown.id ≠ id

/-- A record that is shown is not written again. -/
theorem quiet_shown {shown : ChainEvidenceRecord} (member : shown ∈ store.readChainEvidence) :
    store.Quiet store.readChainEvidence shown :=
  .inl (find_readChainEvidence member)

/-- A record of an id that no snapshot shows is not stored. -/
theorem loud_fresh {record : ChainEvidenceRecord}
    (fresh : ∀ shown ∈ store.readChainEvidence, shown.id ≠ record.id) :
    ¬ store.Quiet store.readChainEvidence record := by
  rintro (same | ⟨row, member, -, ofId, -⟩)
  · exact fresh record (List.mem_of_find?_eq_some same) rfl
  · obtain ⟨shown, shownMember, sameId⟩ := shown_of_row member
    apply fresh shown shownMember
    rw [sameId, ChainVerificationRow.evidenceId, ofId]
    rfl

theorem undecided_fresh {record : ChainEvidenceRecord} (chain : record.chainId = .ethereum)
    (fresh : ∀ shown ∈ store.readChainEvidence, shown.id ≠ record.id) :
    store.Undecided record where
  ethereum := chain
  rows row member same := by
    obtain ⟨shown, shownMember, sameId⟩ := shown_of_row member
    exact absurd (sameId.trans same) (fresh shown shownMember)

theorem recordChainEvidence_effect {record : ChainEvidenceRecord}
    (chain : record.chainId = .ethereum)
    (submitted : recordChainEvidence outside record store = .ok next) :
    next = store.write outside record ∧ store.Undecided record ∧
      Writes outside store (.recordChainEvidence record) record := by
  simp only [recordChainEvidence, transaction, bind_eq_ok, refuse_eq_ok, pure_eq_ok] at submitted
  obtain ⟨_, -, _, pending, records, ⟨_, unused, rfl⟩, persisted⟩ := submitted
  have fresh : ∀ shown ∈ store.readChainEvidence, shown.id ≠ record.id := by
    simpa using unused
  have isPending : record.status = .pending := by
    by_contra other
    exact pending (.inl other)
  refine ⟨?_, undecided_fresh chain fresh, .submitted isPending fresh⟩
  apply persistDelta_write _ (by simp) chain (loud_fresh fresh) persisted
  intro other member
  rcases List.mem_append.mp member with shown | new
  · exact .inr (quiet_shown shown)
  · exact .inl (List.mem_singleton.mp new)

/-- A pending record of Ethereum has no stored decision. -/
theorem EvidenceStore.Sound.undecided (sound : store.Sound) {record : ChainEvidenceRecord}
    (shown : record ∈ store.readChainEvidence) (chain : record.chainId = .ethereum)
    (pending : record.status = .pending) : store.Undecided record where
  ethereum := chain
  rows row member ofId := by
    obtain ⟨last, found, rfl⟩ := mem_readChainEvidence.mp shown
    have agreed := sound.agree last (lastRow_mem found).1 row member chain ofId
    refine ⟨agreed.1, agreed.2, fun decided => ?_⟩
    have decision : ethereumDecision row = true := by
      simpa [ethereumDecision, decided] using agreed.1
    have same := sound.shown_decided member decision shown ofId.symm
    rw [same] at pending
    exact readRow_pending.mpr decided pending

theorem undecided_accepting (sound : store.Sound) {record : ChainEvidenceRecord}
    (shown : record ∈ store.readChainEvidence) (chain : record.chainId = .ethereum)
    (pending : record.status = .pending) (approval : EvidenceApproval) :
    store.Undecided (accepting record.id approval .ethereum record) := by
  have undecided := sound.undecided shown chain pending
  simp only [accepting, if_pos]
  exact ⟨undecided.ethereum, undecided.rows⟩

theorem acceptChainEvidence_effect (sound : store.Sound)
    {verify : ChainEvidenceRecord → EvidenceApproval → Bool} {id : String}
    {approval : EvidenceApproval}
    (ofEthereum : ForEthereum store (.acceptChainEvidence verify id approval))
    (accepted : acceptChainEvidence outside verify id approval store = .ok next) :
    ∃ record, next = store.write outside record ∧ store.Undecided record ∧
      Writes outside store (.acceptChainEvidence verify id approval) record := by
  simp only [acceptChainEvidence, transaction, bind_eq_ok, require_eq_ok, refuse_eq_ok,
    pure_eq_ok] at accepted
  obtain ⟨records, ⟨record, found, _, pending, _, -, rfl⟩, persisted⟩ := accepted
  have shown := List.mem_of_find?_eq_some found
  obtain rfl : record.id = id := by simpa using List.find?_some found
  have chain := ofEthereum record shown rfl
  have isPending : record.status = .pending := by simpa using pending
  refine ⟨_, ?_, undecided_accepting sound shown chain isPending approval,
    .accepted shown isPending⟩
  rw [chain] at persisted
  have target : accepting record.id approval .ethereum record ∈
      store.readChainEvidence.map (accepting record.id approval .ethereum) :=
    List.mem_map_of_mem shown
  have targetId : (accepting record.id approval .ethereum record).id = record.id := by
    simp [accepting]
  have targetChain : (accepting record.id approval .ethereum record).chainId = .ethereum := by
    simp [accepting, chain]
  have targetStatus : (accepting record.id approval .ethereum record).status = .accepted := by
    simp [accepting]
  apply persistDelta_write _ target targetChain _ persisted
  · intro other member
    obtain ⟨item, itemShown, rfl⟩ := List.mem_map.mp member
    by_cases same : item.id = record.id
    · exact .inl (by rw [readChainEvidence_unique shown itemShown same])
    · refine .inr ?_
      by_cases itemChain : item.chainId = .ethereum
      · have off : accepting record.id approval .ethereum item = { item with executionEnabled := false } := by
          simp [accepting, same, itemChain]
        rw [off]
        exact .inr (sound.stored itemShown itemChain rfl rfl rfl)
      · have untouched : accepting record.id approval .ethereum item = item := by
          simp [accepting, same, itemChain]
        rw [untouched]
        exact quiet_shown itemShown
  · rintro (unchanged | ⟨row, member, rowChain, rowId, rowStatus⟩)
    · rw [targetId, find_readChainEvidence shown] at unchanged
      rw [← Option.some.inj unchanged, isPending] at targetStatus
      cases targetStatus
    · rw [targetChain] at rowChain
      have sameId : row.evidenceId = record.id := by
        rw [ChainVerificationRow.evidenceId, rowId, targetId]
        rfl
      have undecided := (sound.undecided shown chain isPending).rows row member sameId
      rw [targetStatus, (sound.written row member rowChain).2] at rowStatus
      have decided : (store.readRow row).status ≠ .pending := by
        rw [Option.some.inj rowStatus]
        decide
      exact undecided.2.2 (readRow_pending.mp decided)

theorem revokeEthereumChainEvidence_effect (sound : store.Sound)
    {expectedId phrase at_ id : String}
    (fresh : ForEthereum store (.revokeEthereumChainEvidence expectedId phrase at_ id))
    (revoked : revokeEthereumChainEvidence outside expectedId phrase at_ id store = .ok next) :
    ∃ record, next = store.write outside record ∧ store.Undecided record ∧
      Writes outside store (.revokeEthereumChainEvidence expectedId phrase at_ id) record := by
  simp only [revokeEthereumChainEvidence, transaction, bind_eq_ok, require_eq_ok, refuse_eq_ok,
    pure_eq_ok] at revoked
  obtain ⟨_, -, records, ⟨active, found, _, expected, _, clock, rfl⟩, persisted⟩ := revoked
  have shown := List.mem_reverse.mp (List.mem_of_find?_eq_some found)
  have on : isActive active = true := List.find?_some found
  obtain rfl : active.id = expectedId := by simpa using expected
  have chain : active.chainId = .ethereum := by
    simp only [isActive, decide_eq_true_eq] at on
    exact on.1
  refine ⟨revocation outside active phrase at_ id, ?_, undecided_fresh chain fresh,
    .revoked shown on (not_lt.mp clock) fresh⟩
  have appended : revocation outside active phrase at_ id ∈ store.readChainEvidence.map switchedOff ++
      [revocation outside active phrase at_ id] := by
    simp
  apply persistDelta_write _ appended chain (loud_fresh fresh) persisted
  intro other member
  rcases List.mem_append.mp member with switched | new
  · obtain ⟨item, itemShown, rfl⟩ := List.mem_map.mp switched
    refine .inr ?_
    by_cases itemChain : item.chainId = .ethereum
    · have off : switchedOff item = { item with executionEnabled := false } := if_pos itemChain
      rw [off]
      exact .inr (sound.stored itemShown itemChain rfl rfl rfl)
    · have untouched : switchedOff item = item := if_neg itemChain
      rw [untouched]
      exact quiet_shown itemShown
  · exact .inl (List.mem_singleton.mp new)

/-- What a successful call for Ethereum does: the profile is there, or one record is written that
has no stored decision. -/
theorem step_writes (sound : store.Sound) {call : Call} (ofEthereum : ForEthereum store call)
    (stepped : step outside call store = .ok next) :
    (call = .ensureEthereumChainProfile ∧ next = ensureEthereumChainProfile store) ∨
      ∃ record, next = store.write outside record ∧ store.Undecided record ∧
        Writes outside store call record := by
  cases call with
  | ensureEthereumChainProfile => exact .inl ⟨rfl, (Except.ok.inj stepped).symm⟩
  | recordChainEvidence record => exact .inr ⟨record, recordChainEvidence_effect ofEthereum stepped⟩
  | acceptChainEvidence verify id approval =>
      exact .inr (acceptChainEvidence_effect sound ofEthereum stepped)
  | revokeEthereumChainEvidence expectedId phrase at_ id =>
      exact .inr (revokeEthereumChainEvidence_effect sound ofEthereum stepped)

end MintBot.Evidence
