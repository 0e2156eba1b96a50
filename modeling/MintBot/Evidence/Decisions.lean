import MintBot.Evidence.ReadBack

/-!
# Runs of decisions

A run is a list of successful calls with the store before and after each.  Every call of a run
is read back as it was made exactly when each acceptance is of a record that was not checked
before a decided one, and each submission is made while no record of Ethereum is on.  A record
that was on before a revocation is never on again.
-/

namespace MintBot.Evidence

open Fallible Newest EvidenceStore

variable {outside : Outside} {store next : EvidenceStore}

/-! ## What a snapshot promises of a call -/

/-- The next snapshot shows the call as it was made: an acceptance leaves exactly the accepted
record on, a revocation none, and a submission changes no other record. -/
def Kept (store : EvidenceStore) (call : Call) (next : EvidenceStore) : Prop :=
  match call with
  | .ensureEthereumChainProfile => True
  | .recordChainEvidence _ =>
      ∀ shown ∈ store.readChainEvidence, ∃ later ∈ next.readChainEvidence,
        later.id = shown.id ∧ later.status = shown.status ∧
          later.executionEnabled = shown.executionEnabled
  | .acceptChainEvidence _ id _ =>
      (∃ shown ∈ next.readChainEvidence,
        shown.id = id ∧ shown.chainId = .ethereum ∧ shown.status = .accepted) ∧
        ∀ shown ∈ next.readChainEvidence, shown.chainId = .ethereum →
          (shown.executionEnabled = true ↔ shown.id = id)
  | .revokeEthereumChainEvidence _ _ _ _ =>
      ∀ shown ∈ next.readChainEvidence, shown.chainId = .ethereum →
        shown.executionEnabled = false

/-- No decided record of Ethereum was checked after this time. -/
def NoneCheckedAfter (store : EvidenceStore) (checkedAt : String) : Prop :=
  ∀ shown ∈ store.readChainEvidence, shown.chainId = .ethereum → shown.status ≠ .pending →
    shown.checkedAt ≤ checkedAt

/-- No record of Ethereum is on. -/
def NoneOn (store : EvidenceStore) : Prop :=
  ∀ shown ∈ store.readChainEvidence, shown.chainId = .ethereum → shown.executionEnabled = false

/-- The order of the check times and of the calls lets the store keep the call. -/
def Meets (store : EvidenceStore) : Call → Prop
  | .recordChainEvidence _ => NoneOn store
  | .acceptChainEvidence _ id _ =>
      ∀ record ∈ store.readChainEvidence, record.id = id →
        NoneCheckedAfter store record.checkedAt
  | _ => True

/-! ## One call -/

/-- The decided records were checked no later than a time when the newest decision was. -/
theorem noneCheckedAfter_iff (sound : store.Sound) (checkedAt : String) :
    NoneCheckedAfter store checkedAt ↔ ∀ row ∈ store.lastDecision, row.checkedAt ≤ checkedAt := by
  constructor
  · intro none row newest
    obtain ⟨member, decision⟩ := newest_mem newest
    obtain ⟨shown, shownMember, ofId⟩ := shown_of_row member
    obtain rfl := sound.shown_decided member decision shownMember ofId
    have decided : row.chainId = .ethereum ∧ row.Decided := by
      simpa [ethereumDecision] using decision
    exact none _ shownMember decided.1 (readRow_pending.mpr decided.2)
  · intro notLater shown shownMember chain decided
    obtain ⟨row, last, rfl⟩ := mem_readChainEvidence.mp shownMember
    have member := (lastRow_mem last).1
    have decision : ethereumDecision row = true :=
      decide_eq_true ⟨chain, readRow_pending.mp decided⟩
    obtain ⟨newest, found⟩ : ∃ newest, store.lastDecision = some newest :=
      newest_of_mem member decision
    exact (le_newest found row member decision).trans (notLater newest found)

/-- After a record that is not an acceptance was written, none of Ethereum is on. -/
theorem noneOn_write {record : ChainEvidenceRecord} (unaccepted : record.status ≠ .accepted) :
    NoneOn (store.write outside record) := by
  intro shown member chain
  have off : (store.write outside record).executionEnabled .ethereum = some false := by
    simp [write, unaccepted]
  rw [← Bool.not_eq_true, shown_executionEnabled member chain, off]
  rintro ⟨⟨⟩, _⟩

/-- A submission changes no other record exactly when none of Ethereum is on. -/
theorem kept_recordChainEvidence {record : ChainEvidenceRecord}
    (pending : record.status = .pending)
    (fresh : ∀ shown ∈ store.readChainEvidence, shown.id ≠ record.id) :
    Kept store (.recordChainEvidence record) (store.write outside record) ↔ NoneOn store := by
  have off : NoneOn (store.write outside record) := noneOn_write (by simp [pending])
  constructor
  · intro kept shown member chain
    obtain ⟨later, laterMember, ofId, _, sameSwitch⟩ := kept shown member
    obtain ⟨row, last, rfl⟩ := mem_readChainEvidence.mp member
    obtain ⟨laterRow, laterLast, rfl⟩ := mem_readChainEvidence.mp laterMember
    rw [ofId, lastRow_write_other (fresh _ member), last] at laterLast
    obtain rfl := Option.some.inj laterLast
    rw [← sameSwitch]
    exact off _ laterMember chain
  · intro none shown member
    obtain ⟨row, last, rfl⟩ := mem_readChainEvidence.mp member
    have laterMember : (store.write outside record).readRow row ∈
        (store.write outside record).readChainEvidence := by
      refine mem_readChainEvidence.mpr ⟨row, ?_, rfl⟩
      exact (lastRow_write_other (fresh _ member)).trans last
    refine ⟨_, laterMember, rfl, rfl, ?_⟩
    by_cases chain : row.chainId = .ethereum
    · rw [off _ laterMember chain, none _ member chain]
    · cases ofChain : row.chainId with
      | ethereum => exact absurd ofChain chain
      | base =>
          simp only [readRow, superseded, ofChain]
          rfl
      | robinhood =>
          simp only [readRow, superseded, ofChain]
          rfl

/-- An acceptance is read back exactly when no decided record was checked later. -/
theorem kept_acceptChainEvidence (sound : store.Sound)
    {verify : ChainEvidenceRecord → EvidenceApproval → Bool} {approval : EvidenceApproval}
    {record : ChainEvidenceRecord}
    (undecided : store.Undecided (accepting record.id approval .ethereum record)) :
    Kept store (.acceptChainEvidence verify record.id approval)
        (store.write outside (accepting record.id approval .ethereum record)) ↔
      NoneCheckedAfter store record.checkedAt := by
  have written : accepting record.id approval .ethereum record =
      { record with
        status := .accepted
        executionEnabled := true
        acceptedAt := some approval.acceptedAt
        acceptedBy := some approval.verifierId
        approvalProof := some approval.proof } := if_pos rfl
  generalize accepting record.id approval .ethereum record = target at written undecided ⊢
  have ofId : target.id = record.id := by rw [written]
  have accepted : target.status = .accepted := by rw [written]
  have on : (store.write outside target).executionEnabled .ethereum = some true := by
    simp [write, written]
  have newest : (store.write outside target).lastDecision =
      if ∀ row ∈ store.lastDecision, row.checkedAt ≤ target.checkedAt then
        some (evidenceRow outside target)
      else store.lastDecision :=
    lastDecision_write undecided.ethereum (by simp [accepted])
  have checked : target.checkedAt = record.checkedAt := by rw [written]
  rw [checked] at newest
  have current : (store.write outside target).currentEthereumId = some record.id ↔
      ∀ row ∈ store.lastDecision, row.checkedAt ≤ record.checkedAt := by
    rw [currentEthereumId_eq, newest]
    split
    · rename_i notLater
      exact iff_of_true (congrArg some ofId) notLater
    · rename_i later
      refine iff_of_false (fun same => ?_) later
      obtain ⟨row, found, sameId⟩ := Option.map_eq_some_iff.mp same
      obtain ⟨member, decision⟩ := newest_mem found
      have decided : row.chainId = .ethereum ∧ row.Decided := by
        simpa [ethereumDecision] using decision
      exact (undecided.rows row member (sameId.trans ofId.symm)).2.2 decided.2
  have last : (store.write outside target).lastRow record.id = some (evidenceRow outside target) :=
    ofId ▸ undecided.lastRow_write
  have acceptedShown : (store.write outside target).readRow (evidenceRow outside target) ∈
      (store.write outside target).readChainEvidence := by
    refine mem_readChainEvidence.mpr ⟨_, ?_, rfl⟩
    exact undecided.lastRow_write
  rw [noneCheckedAfter_iff sound, ← current]
  constructor
  · rintro ⟨_, switches⟩
    have isOn := (switches _ acceptedShown undecided.ethereum).mpr ofId
    have switched := (shown_executionEnabled acceptedShown undecided.ethereum).mp isOn
    exact switched.2.trans (congrArg some ofId)
  · intro isCurrent
    refine ⟨⟨_, acceptedShown, ofId, undecided.ethereum, ?_⟩, fun other member chain => ?_⟩
    · rw [readRow_evidenceRow_status, accepted]
    · rw [shown_executionEnabled member chain, isCurrent]
      exact ⟨fun both => (Option.some.inj both.2).symm, fun same => ⟨on, congrArg some same.symm⟩⟩

/-- A call is read back as it was made exactly when it meets the condition. -/
theorem kept_iff_meets (sound : store.Sound) {call : Call} (ofEthereum : ForEthereum store call)
    (stepped : step outside call store = .ok next) : Kept store call next ↔ Meets store call := by
  rcases step_writes sound ofEthereum stepped with ⟨rfl, rfl⟩ | ⟨record, rfl, undecided, writes⟩
  · exact iff_of_true trivial trivial
  · cases writes with
    | submitted pending fresh => exact kept_recordChainEvidence pending fresh
    | accepted shown pending =>
        rw [kept_acceptChainEvidence sound undecided]
        constructor
        · intro none other member same
          rw [readChainEvidence_unique shown member same]
          exact none
        · intro meets
          exact meets _ shown rfl
    | revoked shown active checked fresh =>
        exact iff_of_true (noneOn_write (by simp [revocation])) trivial

theorem EvidenceStore.Sound.ensure (sound : store.Sound) :
    (ensureEthereumChainProfile store).Sound := by
  unfold ensureEthereumChainProfile
  split
  · exact ⟨sound.written, sound.agree, sound.decided⟩
  · exact sound

/-- Every call keeps the rows sound. -/
theorem sound_step (sound : store.Sound) {call : Call} (ofEthereum : ForEthereum store call)
    (stepped : step outside call store = .ok next) : next.Sound := by
  rcases step_writes sound ofEthereum stepped with ⟨rfl, rfl⟩ | ⟨record, rfl, undecided, _⟩
  · exact sound.ensure
  · exact sound.write undecided

/-! ## Records that were on -/

/-- A decision of Ethereum on the record is stored. -/
def IsDecided (store : EvidenceStore) (id : String) : Prop :=
  ∃ row ∈ store.verifications, ethereumDecision row = true ∧ row.evidenceId = id

/-- A record of Ethereum with this id is on. -/
def IsOn (store : EvidenceStore) (id : String) : Prop :=
  ∃ shown ∈ store.readChainEvidence, shown.chainId = .ethereum ∧ shown.id = id ∧
    shown.executionEnabled = true

/-- The record is decided and not the current one of Ethereum. -/
structure Retired (store : EvidenceStore) (id : String) : Prop where
  decided : IsDecided store id
  replaced : store.currentEthereumId ≠ some id

theorem IsOn.current {id : String} (on : IsOn store id) : store.currentEthereumId = some id := by
  obtain ⟨shown, member, chain, rfl, enabled⟩ := on
  exact ((shown_executionEnabled member chain).mp enabled).2

theorem IsOn.decided {id : String} (on : IsOn store id) : IsDecided store id := by
  obtain ⟨row, found, ofId⟩ := Option.map_eq_some_iff.mp on.current
  obtain ⟨member, decision⟩ := newest_mem found
  exact ⟨row, member, decision, ofId⟩

theorem Retired.not_on {id : String} (retired : Retired store id) : ¬ IsOn store id :=
  fun on => retired.replaced on.current

theorem IsDecided.shown {id : String} (decided : IsDecided store id) :
    ∃ shown ∈ store.readChainEvidence, shown.id = id := by
  obtain ⟨row, member, _, rfl⟩ := decided
  exact shown_of_row member

theorem IsDecided.step (sound : store.Sound) {call : Call} (ofEthereum : ForEthereum store call)
    (stepped : step outside call store = .ok next) {id : String} (decided : IsDecided store id) :
    IsDecided next id := by
  obtain ⟨row, member, decision, ofId⟩ := decided
  rcases step_writes sound ofEthereum stepped with ⟨rfl, rfl⟩ | ⟨record, rfl, _⟩
  · unfold ensureEthereumChainProfile
    split <;> exact ⟨row, member, decision, ofId⟩
  · exact ⟨row, List.mem_append_left _ member, decision, ofId⟩

/-- The current record after a write is the one before it or the one that is written. -/
theorem currentEthereumId_write {record : ChainEvidenceRecord} (chain : record.chainId = .ethereum) :
    (store.write outside record).currentEthereumId = store.currentEthereumId ∨
      (store.write outside record).currentEthereumId = some record.id := by
  rw [currentEthereumId_eq, currentEthereumId_eq]
  by_cases pending : record.status = .pending
  · rw [lastDecision_write_pending pending]
    exact .inl rfl
  · rw [lastDecision_write chain pending]
    split
    · exact .inr rfl
    · exact .inl rfl

/-- A decided record that was replaced stays so. -/
theorem Retired.step (sound : store.Sound) {call : Call} (ofEthereum : ForEthereum store call)
    (stepped : Evidence.step outside call store = .ok next) {id : String}
    (retired : Retired store id) : Retired next id where
  decided := retired.decided.step sound ofEthereum stepped
  replaced := by
    rcases step_writes sound ofEthereum stepped with ⟨rfl, rfl⟩ | ⟨record, rfl, undecided, _⟩
    · unfold ensureEthereumChainProfile
      split <;> exact retired.replaced
    · have written : (store.write outside record).currentEthereumId = store.currentEthereumId ∨
          (store.write outside record).currentEthereumId = some record.id :=
        currentEthereumId_write undecided.ethereum
      rcases written with same | new
      · rw [same]
        exact retired.replaced
      · rw [new]
        intro same
        obtain ⟨row, member, decision, ofId⟩ := retired.decided
        have decided : row.chainId = .ethereum ∧ row.Decided := by
          simpa [ethereumDecision] using decision
        have sameId : row.evidenceId = record.id := ofId.trans (Option.some.inj same).symm
        exact (undecided.rows row member sameId).2.2 decided.2

/-- A revocation replaces every decided record. -/
theorem retired_of_revocation (sound : store.Sound) {expectedId phrase at_ drawn : String}
    (ofEthereum : ForEthereum store (.revokeEthereumChainEvidence expectedId phrase at_ drawn))
    (stepped : step outside (.revokeEthereumChainEvidence expectedId phrase at_ drawn) store =
      .ok next) {id : String} (decided : IsDecided store id) : Retired next id where
  decided := decided.step sound ofEthereum stepped
  replaced := by
    rcases step_writes sound ofEthereum stepped with ⟨⟨⟩, _⟩ | ⟨record, rfl, undecided, writes⟩
    cases writes with
    | @revoked _ _ _ active shown isActive checked fresh =>
        have on : active.chainId = .ethereum ∧ active.status = .accepted ∧
            active.executionEnabled = true := by
          simpa [Evidence.isActive] using isActive
        have current : IsOn store active.id := ⟨active, shown, on.1, rfl, on.2.2⟩
        have newest : (store.write outside
            (revocation outside active phrase at_ drawn)).lastDecision = _ :=
          lastDecision_write undecided.ethereum (by simp [revocation])
        rw [if_pos] at newest
        · rw [currentEthereumId_eq, newest]
          intro same
          obtain ⟨other, otherShown, ofId⟩ := decided.shown
          exact fresh other otherShown (ofId.trans (Option.some.inj same).symm)
        · intro row found
          obtain ⟨member, decision⟩ := newest_mem found
          have ofId : active.id = row.evidenceId := by
            have same := current.current
            rw [currentEthereumId_eq, found] at same
            exact (Option.some.inj same).symm
          have shows := sound.shown_decided member decision shown ofId
          rw [shows] at checked
          exact checked

/-! ## Runs -/

/-- A successful call with the stores around it. -/
structure Decision where
  before : EvidenceStore
  call : Call
  after : EvidenceStore

def Decision.IsRevocation (decision : Decision) : Prop :=
  ∃ expectedId phrase at_ id, decision.call = .revokeEthereumChainEvidence expectedId phrase at_ id

/-- Successful calls for Ethereum, one after the other. -/
def Run (outside : Outside) : EvidenceStore → List Decision → Prop
  | _, [] => True
  | store, decision :: rest =>
      decision.before = store ∧ ForEthereum store decision.call ∧
        step outside decision.call store = .ok decision.after ∧ Run outside decision.after rest

theorem Run.append {decisions later : List Decision} (run : Run outside store (decisions ++ later))
    (sound : store.Sound) :
    ∃ middle : EvidenceStore, middle.Sound ∧ Run outside middle later ∧
      (∀ decision ∈ decisions, ∀ id, IsOn decision.before id → IsDecided middle id) ∧
      ∀ id, IsDecided store id → IsDecided middle id := by
  induction decisions generalizing store with
  | nil => exact ⟨store, sound, run, by simp, fun _ decided => decided⟩
  | cons decision rest inductionHypothesis =>
      obtain ⟨rfl, ofEthereum, stepped, run⟩ := run
      obtain ⟨middle, soundMiddle, runLater, ons, grows⟩ :=
        inductionHypothesis run (sound_step sound ofEthereum stepped)
      have keeps : ∀ id, IsDecided decision.before id → IsDecided middle id := fun id decided =>
        grows id (decided.step sound ofEthereum stepped)
      refine ⟨middle, soundMiddle, runLater, fun other member id on => ?_, keeps⟩
      rcases List.mem_cons.mp member with rfl | inside
      · exact keeps id on.decided
      · exact ons other inside id on

theorem Run.retired {decisions : List Decision} (run : Run outside store decisions)
    (sound : store.Sound) {id : String} (retired : Retired store id) :
    ∀ decision ∈ decisions, ¬ IsOn decision.after id := by
  induction decisions generalizing store with
  | nil => simp
  | cons decision rest inductionHypothesis =>
      obtain ⟨rfl, ofEthereum, stepped, run⟩ := run
      have after := retired.step sound ofEthereum stepped
      intro other member
      rcases List.mem_cons.mp member with rfl | inside
      · exact after.not_on
      · exact inductionHypothesis run (sound_step sound ofEthereum stepped) after other inside

/-- A record that was on before a revocation is on after none of the later calls. -/
def NeverOnAgain (decisions : List Decision) : Prop :=
  ∀ first revocation rest, decisions = first ++ revocation :: rest → revocation.IsRevocation →
    ∀ earlier ∈ first ++ [revocation], ∀ id, IsOn earlier.before id →
      ∀ later ∈ revocation :: rest, ¬ IsOn later.after id

theorem Run.neverOnAgain {decisions : List Decision} (run : Run outside store decisions)
    (sound : store.Sound) : NeverOnAgain decisions := by
  rintro first revocation rest rfl ⟨expectedId, phrase, at_, drawn, isRevocation⟩ earlier member id on
    later laterMember
  obtain ⟨middle, soundMiddle, run, ons, _⟩ := run.append sound
  obtain ⟨rfl, ofEthereum, stepped, run⟩ := run
  have decided : IsDecided revocation.before id := by
    rcases List.mem_append.mp member with inFirst | last
    · exact ons earlier inFirst id on
    · rw [List.mem_singleton.mp last] at on
      exact on.decided
  have soundAfter := sound_step soundMiddle ofEthereum stepped
  rw [isRevocation] at ofEthereum stepped
  have retired := retired_of_revocation soundMiddle ofEthereum stepped decided
  rcases List.mem_cons.mp laterMember with rfl | inside
  · exact retired.not_on
  · exact run.retired soundAfter retired later inside

/-- In every run from a store without rows of Ethereum, all calls are read back as they were made
exactly when they all meet the condition; and what was on before a revocation is never on
again. -/
theorem decisions_read_back (outside : Outside) (store : EvidenceStore)
    (empty : ∀ row ∈ store.verifications, row.chainId ≠ .ethereum) (decisions : List Decision)
    (run : Run outside store decisions) :
    ((∀ decision ∈ decisions, Kept decision.before decision.call decision.after) ↔
      ∀ decision ∈ decisions, Meets decision.before decision.call) ∧
      NeverOnAgain decisions := by
  refine ⟨?_, run.neverOnAgain (sound_of_none empty)⟩
  apply forall₂_congr
  intro decision member
  obtain ⟨first, rest, rfl⟩ := List.append_of_mem member
  obtain ⟨middle, sound, ⟨rfl, ofEthereum, stepped, _⟩, _⟩ := run.append (sound_of_none empty)
  exact kept_iff_meets sound ofEthereum stepped

/-! ## Calls that are carried out -/

def Call.isAcceptance : Call → Bool
  | .acceptChainEvidence _ _ _ => true
  | _ => false

/-- The calls that succeed, one after the other; one that fails leaves the store as it is. -/
def decisionsOf (outside : Outside) : EvidenceStore → List Call → List Decision
  | _, [] => []
  | store, call :: rest =>
      match step outside call store with
      | .ok after => ⟨store, call, after⟩ :: decisionsOf outside after rest
      | .error _ => decisionsOf outside store rest

theorem run_decisionsOf (calls : List Call)
    (forEthereum : ∀ decision ∈ decisionsOf outside store calls,
      ForEthereum decision.before decision.call) :
    Run outside store (decisionsOf outside store calls) := by
  induction calls generalizing store with
  | nil => trivial
  | cons call rest inductionHypothesis =>
      unfold decisionsOf at forEthereum ⊢
      cases stepped : step outside call store with
      | error failure =>
          simp only [stepped] at forEthereum
          exact inductionHypothesis forEthereum
      | ok after =>
          simp only [stepped] at forEthereum
          exact ⟨rfl, forEthereum _ (List.mem_cons_self ..), stepped,
            inductionHypothesis fun decision member =>
              forEthereum decision (List.mem_cons_of_mem _ member)⟩

instance (store : EvidenceStore) (call : Call) : Decidable (ForEthereum store call) := by
  cases call <;> unfold ForEthereum <;> infer_instance

instance (store : EvidenceStore) : Decidable (NoneOn store) := by
  unfold NoneOn
  infer_instance

instance (store : EvidenceStore) (checkedAt : String) :
    Decidable (NoneCheckedAfter store checkedAt) := by
  unfold NoneCheckedAfter
  infer_instance

instance (store : EvidenceStore) (call : Call) : Decidable (Meets store call) := by
  cases call <;> unfold Meets <;> infer_instance

instance (store : EvidenceStore) (call : Call) (next : EvidenceStore) :
    Decidable (Kept store call next) := by
  cases call <;> unfold Kept <;> infer_instance

def plainOutside : Outside where
  dated := fun text => text ≠ ""
  verificationId := fun id status checkedAt =>
    id ++ (if status = .pending then ":pending:" else ":decided:") ++ checkedAt
  storable := fun _ => true
  ethereumChainEvidenceRevokePhrase := fun id => "REVOKE " ++ id
  ownerTypedProof := fun phrase id => phrase ++ "|" ++ id

def noEvidence : EvidenceStore where
  verifications := []
  executionEnabled := fun _ => none
  latestEnablement := fun _ => none

/-- A submission with a permanent expiry. -/
def submission (id checkedAt : String) : Call :=
  .recordChainEvidence
    { id := id
      chainId := .ethereum
      status := .pending
      executionEnabled := false
      facts :=
        { seaDropCompatible := true
          positiveLivePath := true
          archiveForkPassed := true
          negativeCases := []
          reconciliationPassed := true
          finalityPassed := true
          endpointIdentity := "ETHEREUM_RPC_REFERENCE"
          archiveEndpointIdentity := none
          strategyVersion := "seadrop-v1-public-1"
          expiresAt := permanentEnablementExpiry
          sourceBlock := 123
          sourceBlockHash := "0xab" }
      checkedAt := checkedAt
      acceptedAt := none
      acceptedBy := none
      approvalProof := none }

def acceptance (id acceptedAt : String) : Call :=
  .acceptChainEvidence (fun _ _ => true) id ⟨"owner-cli", "proof", acceptedAt⟩

/-- Evidence is accepted, revoked and accepted anew. -/
def ownerCalls : List Call :=
  [.ensureEthereumChainProfile, submission "first" "2026-09-14T10:00:00.000Z",
    acceptance "first" "2026-09-14T10:00:01.000Z",
    .revokeEthereumChainEvidence "first" "REVOKE first" "2026-09-14T10:00:02.000Z" "revoked",
    submission "second" "2026-09-14T10:00:03.000Z",
    acceptance "second" "2026-09-14T10:00:04.000Z"]

theorem owner_decisions_read_back :
    (∀ decision ∈ decisionsOf plainOutside noEvidence ownerCalls,
      Kept decision.before decision.call decision.after) ∧
      NeverOnAgain (decisionsOf plainOutside noEvidence ownerCalls) := by
  have forEthereum : ∀ decision ∈ decisionsOf plainOutside noEvidence ownerCalls,
      ForEthereum decision.before decision.call := by decide +kernel
  have meets : ∀ decision ∈ decisionsOf plainOutside noEvidence ownerCalls,
      Meets decision.before decision.call := by decide +kernel
  have readBack := decisions_read_back plainOutside noEvidence (by simp [noEvidence])
    (decisionsOf plainOutside noEvidence ownerCalls) (run_decisionsOf ownerCalls forEthereum)
  exact ⟨readBack.1.mpr meets, readBack.2⟩

/-- The second record to be accepted was checked before the first. -/
def olderCheckCalls : List Call :=
  [.ensureEthereumChainProfile, submission "later" "2026-09-14T10:00:01.000Z",
    acceptance "later" "2026-09-14T10:00:02.000Z",
    submission "earlier" "2026-09-14T10:00:00.000Z",
    acceptance "earlier" "2026-09-14T10:00:03.000Z"]

theorem older_check_not_read_back :
    ¬ ∀ (outside : Outside) (store : EvidenceStore),
        (∀ row ∈ store.verifications, row.chainId ≠ .ethereum) →
        ∀ decisions, Run outside store decisions →
          ∀ decision ∈ decisions, Kept decision.before decision.call decision.after := by
  intro claimed
  have forEthereum : ∀ decision ∈ decisionsOf plainOutside noEvidence olderCheckCalls,
      ForEthereum decision.before decision.call := by decide +kernel
  have kept := claimed plainOutside noEvidence (by simp [noEvidence])
    (decisionsOf plainOutside noEvidence olderCheckCalls)
    (run_decisionsOf olderCheckCalls forEthereum)
  have lost : ∃ decision ∈ decisionsOf plainOutside noEvidence olderCheckCalls,
      decision.call.isAcceptance = true ∧
        ¬ Kept decision.before decision.call decision.after := by
    decide +kernel
  obtain ⟨decision, member, _, notKept⟩ := lost
  exact notKept (kept decision member)

end MintBot.Evidence
